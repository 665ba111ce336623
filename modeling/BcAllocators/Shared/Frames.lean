import BcAllocators.Arena.Stability
import BcAllocators.Pool.Contract

/-!
# What the pool and the arenas leave to each other

One context serves clients of the pool and clients of arenas. The pool writes to its
region and to its own fields of the context (`PoolGuarantee`). The arenas write to
their blocks, which are apart from the region, and to their own fields
(`ArenaGuarantee`). So the heap of the pool is stable under what the arenas do
(`PoolInv.stable`), and the heap of the arenas under what the pool does
(`ArenaInv.stable`).
-/

set_option autoImplicit false

namespace BcAllocators

open Machine

variable {core : BcCore} {platform : Platform} {foreign : List Extent} {w w' : World}
variable {views rest : List ArenaView} {a : ArenaView}

/-! ## The pool -/

/-- What a call of the pool does to the world. -/
structure PoolGuarantee (w w' : World) : Prop where
  update : ∃ change, PoolUpdate change w w'
  stays : StaysInside w w'

/-- A payload lies in the region. -/
theorem PoolInv.payload_territory {s : PoolState} (inv : PoolInv core platform s) {b : LiveBlock}
    (member : b ∈ s.live) :
    (b.payload core s.world.mem).bytes ⊆ s.world.ctx.region.addresses := by
  obtain ⟨free, heap⟩ := inv.heap
  intro p inside
  exact heap.block_territory (List.mem_append_left _ (heldBlocks_of_mem core member))
    ((inv.placed b member).payload_inside inside)

/-- **A step of the pool stays inside the region.** -/
theorem PoolInv.stays {s s' : PoolState} {event : PoolEvent} (inv : PoolInv core platform s)
    (step : (poolSystem core platform).Next s event s') : StaysInside s.world s'.world := by
  obtain ⟨free, heap⟩ := inv.heap
  obtain ⟨call, result⟩ := event
  obtain ⟨allowed, performed⟩ := step
  obtain rfl : (s.perform core call).1 = s' := congrArg Prod.fst performed
  cases call with
  | allocate size =>
      obtain ⟨word, noWrap⟩ := inv.no_wrap allowed
      exact poolAllocate_territory core heap word noWrap
  | reallocate ptr newSize =>
      obtain ⟨word, noWrap⟩ := inv.no_wrap allowed.1
      rcases allowed.2 with rfl | ⟨b, member, rfl⟩
      · rw [inv.perform_null]
        exact poolAllocate_territory core heap word noWrap
      · have stays := poolReallocate_territory core heap
          (heldBlocks_split core inv.nodup member).1 word noWrap
        rw [(inv.placed b member).pointer] at stays
        exact stays
  | free ptr =>
      rcases inv.free_cases allowed with ⟨nothing, _⟩ | ⟨b, member, rfl⟩
      · have same : (s.perform core (.free ptr)).1.world = s.world := nothing
        exact same ▸ StaysInside.refl s.world
      · have stays := poolFree_territory heap (heldBlocks_split core inv.nodup member).1
        rw [(inv.placed b member).pointer] at stays
        exact stays
  | write address bytes =>
      obtain ⟨b, member, lower, upper⟩ := allowed
      refine ⟨rfl, (changesOnly_storeBytes _ _ _).mono fun p inside => ?_⟩
      exact inv.payload_territory member
        ⟨lower.trans inside.1, lt_of_lt_of_le inside.2 upper⟩

theorem PoolInv.guarantee {s s' : PoolState} {event : PoolEvent} (inv : PoolInv core platform s)
    (step : (poolSystem core platform).Next s event s') : PoolGuarantee s.world s'.world :=
  ⟨inv.update step, inv.stays step⟩

/-! ## The arenas -/

/-- What a call of the arenas does to the world: the region is not theirs. -/
structure ArenaGuarantee (w w' : World) : Prop where
  update : ∃ change, ArenaUpdate change w.ctx w'.ctx
  spares : ∀ p ∈ w.ctx.region.addresses, w'.mem p = w.mem p

/-- Only blocks of arenas have changed, those before a call and those after it. -/
def WithinBlocks (views views' : List ArenaView) (w w' : World) : Prop :=
  ChangesOnly (blockBytes (arenaBlocks views ++ arenaBlocks views')) w.mem w'.mem

theorem blockBytes_mono {blocks blocks' : List Extent} (subset : blocks ⊆ blocks') :
    blockBytes blocks ⊆ blockBytes blocks' := by
  rintro b ⟨e, member, inside⟩
  exact ⟨e, subset member, inside⟩

/-- The region is one of the context's own mappings. -/
theorem Context.region_mem_ownBlocks (ctx : Context) :
    (⟨ctx.region.base, ctx.region.totalSize⟩ : Extent) ∈ ctx.ownBlocks :=
  List.mem_cons_of_mem _ List.mem_cons_self

/-- The blocks of arenas are apart from the region. -/
theorem ArenaHeap.region_apart (heap : ArenaHeap platform w views foreign) :
    ∀ e ∈ arenaBlocks views, e.Apart ⟨w.ctx.region.base, w.ctx.region.totalSize⟩ :=
  fun e member => (List.pairwise_append.mp heap.ledger.apart).2.2 e
    (List.mem_append_left _ member) _ w.ctx.region_mem_ownBlocks

theorem ArenaHeap.not_region (heap : ArenaHeap platform w views foreign) {p : Nat}
    (inside : p ∈ w.ctx.region.addresses) : p ∉ blockBytes (arenaBlocks views) := by
  rintro ⟨e, member, within⟩
  exact (heap.region_apart e member).disjoint within inside

/-- **What a call leads to, with the bytes that it may have changed.** -/
structure Touched (core : BcCore) (platform : Platform) (foreign : List Extent) (s : ArenaState)
    (views : List ArenaView) (s' : ArenaState) (views' : List ArenaView) : Prop where
  heap : ArenaHeap platform s'.world views' foreign
  clients : s'.arenas.Perm (views'.map ArenaView.client)
  update : ∃ change, ArenaUpdate change s.world.ctx s'.world.ctx
  within : WithinBlocks views views' s.world s'.world

section touched

variable {s s' : ArenaState} {views' : List ArenaView} {size alignment : Nat}
  {answer : Option Nat} (heap : ArenaHeap platform s.world views foreign)
  (perm : s.arenas.Perm (views.map ArenaView.client))

include heap perm

/-- A call that changes neither the context nor any byte. -/
theorem touched_nothing {t : ArenaState} (world : t.world = s.world)
    (arenas : t.arenas = s.arenas) : Touched core platform foreign s views t views where
  heap := world ▸ heap
  clients := arenas ▸ perm
  update := ⟨id, world ▸ ArenaUpdate.refl s.world.ctx⟩
  within := world ▸ ChangesOnly.refl _ _

theorem touched_create {capacity initialChunkSize maxChunkSize : Nat} {growable : Bool}
    {result : World × PtrResult}
    (outcome : ArenaCreateOutcome platform s.world views foreign capacity initialChunkSize
      maxChunkSize growable result) :
    ∃ views', Touched core platform foreign s views (s.created result).1 views' := by
  cases outcome with
  | refused => exact ⟨views, touched_nothing heap perm rfl rfl⟩
  | created after update changes _ =>
      refine ⟨_, after, perm.cons _, ⟨_, update⟩, changes.mono fun p inside => ⟨_, ?_, inside⟩⟩
      exact List.mem_append_right _ List.mem_cons_self

/-- An allocating call writes to headers, to a new block, and to the new allocation. -/
theorem touched_allocate {writes : Nat → Set Nat} {result : World × PtrResult}
    (split : views.Perm (a :: rest)) (new : ∀ ptr, writes ptr ⊆ Extent.bytes ⟨ptr, size⟩)
    (outcome : ArenaAllocateOutcome core platform s.world a rest foreign size alignment answer
      writes result) :
    ∃ views', Touched core platform foreign s views
      (s.allocated a.address size alignment result).1 views' := by
  have first := heap.perm split.symm
  have clients := perm.trans (split.map ArenaView.client)
  have others := first.address_ne
  have header : ∀ {blocks : List Extent} {p : Nat}, p ∈ a.headerBytes →
      p ∈ blockBytes (arenaBlocks views ++ blocks) := by
    intro blocks p inHeader
    obtain ⟨e, member, inside⟩ :=
      ArenaView.headerBytes_subset (first.shape a List.mem_cons_self) inHeader
    exact ⟨e, List.mem_append_left _ (List.mem_flatMap.mpr
      ⟨a, split.mem_iff.mpr List.mem_cons_self, member⟩), inside⟩
  have served : ∀ {w' : World} {b : ArenaView} {ptr p : Nat},
      ArenaHeap platform w' (b.serve ⟨ptr, size, alignment⟩ :: rest) foreign → p ∈ writes ptr →
      p ∈ blockBytes (arenaBlocks views ++
        arenaBlocks (b.serve ⟨ptr, size, alignment⟩ :: rest)) := by
    intro w' b ptr p after written
    obtain ⟨c, inChunks, inside, _⟩ := after.alloc_inside List.mem_cons_self
      (x := ⟨ptr, size, alignment⟩) List.mem_cons_self (new ptr written)
    exact ⟨c.extent, List.mem_append_right _ (List.mem_flatMap.mpr
      ⟨_, List.mem_cons_self, List.mem_map_of_mem inChunks⟩), inside⟩
  have added : ∀ {b : ArenaView} {e : Extent} {p : Nat}, b.blocks = a.blocks ++ [e] →
      p ∈ e.bytes → p ∈ blockBytes (arenaBlocks views ++ arenaBlocks (b :: rest)) := by
    intro b e p blocks inside
    refine ⟨e, List.mem_append_right _ (List.mem_flatMap.mpr ⟨b, List.mem_cons_self, ?_⟩), inside⟩
    rw [blocks]
    exact List.mem_append_right _ List.mem_cons_self
  cases outcome with
  | refused idle => exact ⟨views, touched_nothing heap perm rfl rfl⟩
  | served after context changes _ =>
      refine ⟨_, after, ?_, ⟨id, context ▸ ArenaUpdate.refl _⟩, changes.mono fun p inside => ?_⟩
      · rw [List.map_cons, ArenaView.serve_client]
        exact changeArena_perm clients others
      · rcases inside with inHeader | written
        · exact header inHeader
        · exact served after written
  | grown after update changes _ =>
      refine ⟨_, after, ?_, ⟨_, update⟩, changes.mono fun p inside => ?_⟩
      · rw [List.map_cons, ArenaView.serve_client, ArenaView.extend_address]
        exact changeArena_perm clients others
      · rcases inside with (inHeader | inBlock) | written
        · exact header inHeader
        · exact added ((ArenaView.serve_blocks _ _).trans (a.extend_blocks _ _)) inBlock
        · exact served after written
  | wasted after update changes _ =>
      refine ⟨_, after, ?_, ⟨_, update⟩, changes.mono fun p inside => ?_⟩
      · rw [List.map_cons, ArenaView.extend_client]
        exact clients
      · rcases inside with inHeader | inBlock
        · exact header inHeader
        · exact added (a.extend_blocks _ _) inBlock

omit heap perm in
/-- The arenas that a client knows after a reset. -/
theorem reset_clients (first : ArenaHeap platform s.world (a :: rest) foreign)
    (clients : s.arenas.Perm (a.client :: rest.map ArenaView.client)) :
    (changeArena s.arenas a.address fun _ => []).Perm
      ((a.reset :: rest).map ArenaView.client) :=
  changeArena_perm clients first.address_ne

omit heap perm in
/-- A call that gives up the blocks of an arena writes to them alone. -/
theorem touched_giveUp {t : ArenaState} (split : views.Perm (a :: rest))
    (after : ArenaHeap platform t.world views' foreign)
    (clients : t.arenas.Perm (views'.map ArenaView.client))
    (update : ∃ change, ArenaUpdate change s.world.ctx t.world.ctx)
    (changes : ChangesOnly (blockBytes a.blocks) s.world.mem t.world.mem) :
    Touched core platform foreign s views t views' := by
  refine ⟨after, clients, update, changes.mono (blockBytes_mono fun e member => ?_)⟩
  exact List.mem_append_left _ (List.mem_flatMap.mpr
    ⟨a, split.mem_iff.mpr List.mem_cons_self, member⟩)

/-- **Every allowed call changes bytes of arenas alone.** -/
theorem touched_call {call : ArenaCall} (allowed : s.Allows call) {result : PtrResult}
    (performed : s.perform core platform call = some (s', result)) :
    ∃ views', Touched core platform foreign s views s' views' := by
  cases call with
  | create capacity answer =>
      cases performed
      exact touched_create heap perm
        (arenaMakeFirst_outcome core heap false answer allowed ⟨allowed, allowed⟩)
  | createGrowable initialChunkSize maxChunkSize answer =>
      cases performed
      exact touched_create heap perm (arenaCreateGrowable_outcome core heap answer allowed)
  | allocate arena size alignment answer =>
      obtain ⟨⟨h, live, rfl⟩, sizeWord, alignmentWord⟩ := allowed
      obtain ⟨a, rest, rfl, split, first, _⟩ := ArenaInv.split heap perm live
      cases performed
      exact touched_allocate heap perm split (fun _ => Set.empty_subset _)
        (arenaAllocate_outcome core first sizeWord alignmentWord answer)
  | copyString arena source answer =>
      obtain ⟨h, live, rfl⟩ := allowed
      obtain ⟨a, rest, rfl, split, first, _⟩ := ArenaInv.split heap perm live
      cases performed
      exact touched_allocate heap perm split (fun _ => Set.Subset.refl _)
        (arenaCopyString_outcome core first source answer)
  | reset arena =>
      obtain ⟨h, live, rfl⟩ := allowed
      obtain ⟨a, rest, rfl, split, first, clients⟩ := ArenaInv.split heap perm live
      obtain ⟨w', reset, after, update, changes⟩ := arenaReset_outcome first
      obtain ⟨w, returns, rfl⟩ := ArenaState.perform_reset performed
      obtain rfl := Option.some.inj (returns.symm.trans reset)
      exact ⟨_, touched_giveUp split after (reset_clients first clients)
        ⟨_, update⟩
        (changes.mono (ArenaView.headerBytes_subset (first.shape a List.mem_cons_self)))⟩
  | resetSecure arena =>
      obtain ⟨h, live, rfl⟩ := allowed
      obtain ⟨a, rest, rfl, split, first, clients⟩ := ArenaInv.split heap perm live
      obtain ⟨w', reset, after, update, changes⟩ := arenaResetSecure_outcome core first
      obtain ⟨w, returns, rfl⟩ := ArenaState.perform_resetSecure performed
      obtain rfl := Option.some.inj (returns.symm.trans reset)
      have shape := first.shape a List.mem_cons_self
      exact ⟨_, touched_giveUp split after (reset_clients first clients)
        ⟨_, update⟩ (changes.mono (Set.union_subset (ArenaView.headerBytes_subset shape)
          (ArenaView.usedPayloads_subset shape)))⟩
  | releasePages arena =>
      obtain ⟨h, live, rfl⟩ := allowed
      obtain ⟨a, rest, rfl, split, first, _⟩ := ArenaInv.split heap perm live
      obtain ⟨w, returns, rfl⟩ := ArenaState.perform_releasePages performed
      obtain rfl := Option.some.inj (returns.symm.trans (arenaReleasePages_outcome first))
      exact ⟨views, touched_nothing heap perm rfl rfl⟩
  | destroy arena =>
      obtain ⟨h, live, rfl⟩ := allowed
      obtain ⟨a, rest, rfl, split, first, clients⟩ := ArenaInv.split heap perm live
      obtain ⟨w', destroyed, after, update, mem⟩ := arenaDestroy_outcome first
      obtain ⟨w, returns, rfl⟩ := ArenaState.perform_destroy performed
      obtain rfl := Option.some.inj (returns.symm.trans destroyed)
      exact ⟨_, touched_giveUp split after (dropArena_perm clients first.address_ne)
        ⟨_, update⟩ (mem ▸ ChangesOnly.refl _ _)⟩
  | write address bytes =>
      have moved := moved_write core heap perm allowed
      cases performed
      obtain ⟨h, member, x, inAllocs, lower, upper⟩ := allowed
      obtain ⟨b, inViews, rfl⟩ := List.mem_map.mp (perm.mem_iff.mp member)
      refine ⟨views, moved.heap, moved.clients, ⟨id, ArenaUpdate.refl _⟩,
        (changesOnly_storeBytes _ _ _).mono fun p inside => ?_⟩
      obtain ⟨c, inChunks, within, _⟩ := heap.alloc_inside inViews inAllocs
        (p := p) ⟨lower.trans inside.1, lt_of_lt_of_le inside.2 upper⟩
      exact ⟨c.extent, List.mem_append_left _ (List.mem_flatMap.mpr
        ⟨b, inViews, List.mem_map_of_mem inChunks⟩), within⟩

end touched

theorem ArenaInv.guarantee {s s' : ArenaState} {event : ArenaEvent}
    (inv : ArenaInv platform foreign s)
    (step : (arenaSystem core platform foreign).Next s event s') :
    ArenaGuarantee s.world s'.world := by
  obtain ⟨views, heap, perm⟩ := inv
  obtain ⟨views', touched⟩ := touched_call heap perm step.1 step.2
  obtain ⟨change, update⟩ := touched.update
  refine ⟨⟨change, update⟩, fun p inside => touched.within p ?_⟩
  have region : s'.world.ctx.region.addresses = s.world.ctx.region.addresses := by
    obtain ⟨_, _, _, same⟩ := update
    rw [same]
  rintro ⟨e, member, within⟩
  rcases List.mem_append.mp member with before | after
  · exact heap.not_region inside ⟨e, before, within⟩
  · exact touched.heap.not_region (region.symm ▸ inside) ⟨e, after, within⟩

/-! ## Stability -/

/-- **The heap of the pool depends on its region and its own fields.** -/
theorem PoolHeap.congr {spans : List Span} {held free : PoolKind → List Nat}
    (heap : PoolHeap platform w spans held free) (region : w'.ctx.region = w.ctx.region)
    (pageSize : w'.ctx.pageSize = w.ctx.pageSize) (pageShift : w'.ctx.pageShift = w.ctx.pageShift)
    (lists : ∀ kind, w'.ctx.freeList kind = w.ctx.freeList kind)
    (same : ∀ p ∈ w.ctx.region.addresses, w'.mem p = w.mem p) :
    PoolHeap platform w' spans held free := by
  have word : ∀ {kind : PoolKind} {block offset : Nat}, Owns held free kind block → offset ≤ 8 →
      loadWord w'.mem (block + offset) = loadWord w.mem (block + offset) := by
    intro kind block offset owned small
    refine loadWord_congr fun p lower upper => same p (heap.block_territory owned ?_)
    have enough := (heap.block_bounds owned).2.2
    refine Extent.mem_bytes.mpr ?_
    rw [blockExtent_start]
    omega
  have written := heap.memory (m := w'.mem)
    (fun kind block inFree => word (List.mem_append_right _ inFree) (Nat.zero_le 8))
    (fun block owned => word owned (Nat.le_refl 8))
  have geometry := heap.geometry
  constructor
  case geometry =>
    refine ⟨pageSize.trans geometry.pageSize, pageShift.trans geometry.pageShift, ?_, ?_, ?_, ?_, ?_⟩
    · exact region ▸ geometry.base_pos
    · exact region ▸ geometry.base_aligned
    · exact region ▸ geometry.total_lt
    · exact region ▸ geometry.total_aligned
    · exact region ▸ geometry.region_lt
  case tiles => exact region ▸ written.tiles
  case bump_le => exact region ▸ written.bump_le
  case shaped => exact written.shaped
  case tagged => simpa only [region] using written.tagged
  case untagged => simpa only [region] using written.untagged
  case totals => simpa only [region] using written.totals
  case lists => simpa only [lists] using written.lists
  case partition => simpa only [region] using written.partition

/-- **What the arenas do leaves the heap of the pool alone.** -/
theorem PoolInv.stable {s : PoolState} (inv : PoolInv core platform s)
    (other : ArenaGuarantee s.world w') : PoolInv core platform { s with world := w' } := by
  obtain ⟨free, heap⟩ := inv.heap
  obtain ⟨⟨_, _, _, _, context⟩, spares⟩ := other
  have kept : KeepsHeld s.world.mem w'.mem (heldBlocks core s.live) :=
    fun kind block inHeld p inside =>
      spares p (heap.block_territory (List.mem_append_left _ inHeld) inside)
  refine ⟨⟨free, heap.congr ?_ ?_ ?_ ?_ spares⟩, fun b member => ?_, inv.nodup⟩
  · rw [context]
  · rw [context]
  · rw [context]
  · intro kind
    rw [context]
    cases kind <;> rfl
  · have inHeld := heldBlocks_of_mem core member
    exact (inv.placed b member).kept kept inHeld (heap.held_room _ _ inHeld)

/-- **What the pool does leaves the heap of the arenas alone.** -/
theorem ArenaHeap.stable (heap : ArenaHeap platform w views foreign) (other : PoolGuarantee w w') :
    ArenaHeap platform w' views foreign := by
  obtain ⟨⟨_, _, _, _, _, _, _, _, same⟩, stays⟩ := other
  have changes : ChangesOnly
      (blockBytes [⟨w.ctx.region.base, w.ctx.region.totalSize⟩]) w.mem w'.mem :=
    stays.changes.mono fun p inside => ⟨_, List.mem_cons_self, inside⟩
  subst same
  refine ⟨heap.pageSize, heap.address, heap.ledger.congr rfl rfl, heap.shape, ?_, heap.sound⟩
  intro b member
  refine (heap.here b member).frame (heap.shape b member) changes fun e inBlocks f among => ?_
  obtain rfl := List.mem_singleton.mp among
  exact heap.region_apart e (List.mem_flatMap.mpr ⟨b, member, inBlocks⟩)

theorem ArenaInv.stable {s : ArenaState} (inv : ArenaInv platform foreign s)
    (other : PoolGuarantee s.world w') : ArenaInv platform foreign { s with world := w' } := by
  obtain ⟨views, heap, perm⟩ := inv
  exact ⟨views, heap.stable other, perm⟩

end BcAllocators
