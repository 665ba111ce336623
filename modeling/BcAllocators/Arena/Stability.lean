import BcAllocators.Arena.Foreign
import BcAllocators.Arena.Layout

/-!
# The contents of arenas

The functions of the arenas write to headers, to blocks that they have just
obtained, and, when they reset an arena securely, to the payloads of that arena.
What a client has stored in an allocation therefore stays there, and the
allocation stays where it is, until its own arena gives it up. The step lemma is
`ArenaInv.keeps`; `System.Run.traced` makes it a statement about runs.

A string may be copied from wherever a client can read: from its allocations, from
the region of the pool, or from what others have mapped.
-/

set_option autoImplicit false

namespace BcAllocators

open Machine

variable {core : BcCore} {platform : Platform} {foreign : List Extent} {s s' : ArenaState}
variable {w w' : World} {a b : ArenaView} {views rest : List ArenaView} {x y : Alloc}
variable {size alignment : Nat} {answer : Option Nat}

/-! ## Bytes of allocations -/

/-- A byte of an allocation is a byte of a block of its arena. -/
theorem ArenaHeap.alloc_inside (heap : ArenaHeap platform w views foreign) (inViews : a ∈ views)
    (member : x ∈ a.allocs) {p : Nat} (inside : p ∈ x.extent.bytes) :
    ∃ c ∈ a.chunks, p ∈ c.extent.bytes ∧ c.start ≤ p := by
  obtain ⟨c, inChunks, holds⟩ := (heap.sound a inViews).inside x member
  have within := holds.inside ((heap.shape a inViews).fit c inChunks)
  rw [Extent.mem_bytes] at inside
  refine ⟨c, inChunks, ⟨within.1.trans inside.1, lt_of_lt_of_le inside.2 within.2⟩, ?_⟩
  exact holds.1.trans inside.1

/-- A byte of an allocation is no byte of a header. -/
theorem ArenaHeap.alloc_not_header (heap : ArenaHeap platform w views foreign)
    (inViews : a ∈ views) (inViews' : b ∈ views) (member : x ∈ a.allocs) {p : Nat}
    (inside : p ∈ x.extent.bytes) : p ∉ b.headerBytes := by
  rintro ⟨d, inChunks', lower, upper⟩
  obtain ⟨c, inChunks, within, above⟩ := heap.alloc_inside inViews member inside
  rcases heap.chunk_apart inViews inViews' inChunks inChunks' with ⟨_, rfl⟩ | apart
  · exact Nat.not_lt_of_le above upper
  · exact apart.disjoint within
      (((heap.shape b inViews').fit d inChunks').mem_extent lower upper)

/-- A byte of an allocation is in no block of another arena. -/
theorem ArenaHeap.alloc_not_first (heap : ArenaHeap platform w (a :: rest) foreign)
    (inRest : b ∈ rest) (member : x ∈ b.allocs) {p : Nat} (inside : p ∈ x.extent.bytes) :
    p ∉ blockBytes a.blocks := by
  rintro ⟨e, inFirst, within⟩
  obtain ⟨c, inChunks, again, _⟩ :=
    heap.alloc_inside (List.mem_cons_of_mem a inRest) member inside
  refine (heap.apart_rest e inFirst c.extent ?_).disjoint within again
  exact List.mem_flatMap.mpr ⟨b, inRest, List.mem_map_of_mem inChunks⟩

/-- The latest allocation is apart from the others. -/
theorem ArenaHeap.serve_apart (heap : ArenaHeap platform w (a.serve y :: rest) foreign)
    (older : x ∈ a.allocs ++ rest.flatMap ArenaView.allocs) : y.extent.Apart x.extent := by
  have pairwise := allocs_apart heap.shape heap.sound heap.apart
  have first : (a.serve y).allocs = y :: a.allocs := rfl
  rw [List.flatMap_cons, first, List.cons_append, List.map_cons] at pairwise
  exact (List.pairwise_cons.mp pairwise).1 _ (List.mem_map_of_mem older)

/-- The block of a new chunk is apart from all others. -/
theorem ArenaHeap.added_apart {e : Extent} (heap : ArenaHeap platform w (b :: rest) foreign)
    (added : b.blocks = a.blocks ++ [e]) :
    ∀ f ∈ arenaBlocks (a :: rest) ++ w.ctx.ownBlocks, e.Apart f := by
  have order : (arenaBlocks (b :: rest)).Perm (e :: arenaBlocks (a :: rest)) := by
    simp only [arenaBlocks, List.flatMap_cons, added]
    exact (List.perm_append_singleton _ _).append_right _
  obtain ⟨blocks, _, across⟩ := List.pairwise_append.mp (heap.ledger.perm order.symm).apart
  intro f member
  rcases List.mem_append.mp member with inArenas | own
  · exact (List.pairwise_cons.mp (List.pairwise_append.mp blocks).1).1 f inArenas
  · exact across e (List.mem_append_left _ List.mem_cons_self) f own

/-! ## What a call leaves alone -/

/-- The call gives up no allocation of the arena, and is no write to the address. -/
def ArenaCall.Spares (arena p : Nat) : ArenaCall → Prop
  | .reset other => other ≠ arena
  | .resetSecure other => other ≠ arena
  | .releasePages other => other ≠ arena
  | .destroy other => other ≠ arena
  | .write address bytes => p ∉ Set.Ico address (address + bytes.length)
  | _ => True

/-- An allocation is where it was, and the byte is what it was. -/
structure Stays (s s' : ArenaState) (arena : Nat) (x : Alloc) (p : Nat) : Prop where
  held : ∃ h ∈ s'.arenas, h.address = arena ∧ x ∈ h.allocs
  same : s'.world.mem p = s.world.mem p

/-- An allocation stays in its arena when another one is added. -/
theorem held_changeArena {arenas : List LiveArena} {h : LiveArena} (member : h ∈ arenas)
    (inAllocs : x ∈ h.allocs) (arena : Nat) :
    ∃ g ∈ changeArena arenas arena (y :: ·), g.address = h.address ∧ x ∈ g.allocs := by
  refine ⟨_, List.mem_map_of_mem member, ?_⟩
  split_ifs
  · exact ⟨rfl, List.mem_cons_of_mem y inAllocs⟩
  · exact ⟨rfl, inAllocs⟩

/-- An allocation of another arena stays when an arena changes. -/
theorem held_other {arenas : List LiveArena} {h : LiveArena} {change : List Alloc → List Alloc}
    (member : h ∈ arenas) (inAllocs : x ∈ h.allocs) {arena : Nat} (other : arena ≠ h.address) :
    ∃ g ∈ changeArena arenas arena change, g.address = h.address ∧ x ∈ g.allocs := by
  refine ⟨h, List.mem_map.mpr ⟨h, member, if_neg other.symm⟩, rfl, inAllocs⟩

section keeps

variable (inViews : b ∈ views) (inAllocs : x ∈ b.allocs) {p : Nat} (inside : p ∈ x.extent.bytes)
  (member : b.client ∈ s.arenas) (heap : ArenaHeap platform s.world views foreign)

include inViews inAllocs inside

/-- A call that gives up the blocks of an arena, and writes nowhere else, leaves the
allocations of the others alone. -/
theorem stays_giveUp (heap : ArenaHeap platform s.world views foreign) {arenas : List LiveArena}
    (split : views.Perm (a :: rest)) (other : a.address ≠ b.address)
    (held : ∃ h ∈ arenas, h.address = b.address ∧ x ∈ h.allocs)
    (changes : ChangesOnly (blockBytes a.blocks) s.world.mem w'.mem) :
    Stays s (s.after w' arenas) b.address x p := by
  refine ⟨held, changes p ?_⟩
  have inRest : b ∈ rest := by
    rcases List.mem_cons.mp (split.mem_iff.mp inViews) with same | inRest
    · exact absurd (congrArg ArenaView.address same).symm other
    · exact inRest
  exact (heap.perm split.symm).alloc_not_first inRest inAllocs inside

include member

/-- A creation leaves allocations alone. -/
theorem stays_create {capacity initialChunkSize maxChunkSize : Nat} {growable : Bool}
    {result : World × PtrResult}
    (outcome : ArenaCreateOutcome platform s.world views foreign capacity initialChunkSize
      maxChunkSize growable result) :
    Stays s (s.created result).1 b.address x p := by
  cases outcome with
  | refused => exact ⟨⟨b.client, member, rfl, inAllocs⟩, rfl⟩
  | created after _ changes _ =>
      refine ⟨⟨b.client, List.mem_cons_of_mem _ member, rfl, inAllocs⟩, changes p fun inBlock => ?_⟩
      refine after.alloc_not_first inViews inAllocs inside ⟨_, ?_, inBlock⟩
      exact List.mem_cons_self

include heap

/-- An allocating call leaves allocations alone: it writes to headers, to a new block
and to the new allocation. -/
theorem stays_allocate {writes : Nat → Set Nat} {result : World × PtrResult}
    (split : views.Perm (a :: rest)) (new : ∀ ptr, writes ptr ⊆ Extent.bytes ⟨ptr, size⟩)
    (outcome : ArenaAllocateOutcome core platform s.world a rest foreign size alignment answer
      writes result) :
    Stays s (s.allocated a.address size alignment result).1 b.address x p := by
  have first : b ∈ a :: rest := split.mem_iff.mp inViews
  have older : x ∈ a.allocs ++ rest.flatMap ArenaView.allocs :=
    List.mem_flatMap.mpr ⟨b, first, inAllocs⟩
  have header := heap.alloc_not_header inViews (split.mem_iff.mpr List.mem_cons_self) inAllocs
    inside
  obtain ⟨c, inChunks, within, _⟩ := heap.alloc_inside inViews inAllocs inside
  have block : c.extent ∈ arenaBlocks (a :: rest) :=
    List.mem_flatMap.mpr ⟨b, first, List.mem_map_of_mem inChunks⟩
  cases outcome with
  | refused idle => exact ⟨⟨b.client, member, rfl, inAllocs⟩, rfl⟩
  | served after _ changes _ =>
      refine ⟨held_changeArena member inAllocs _, changes p ?_⟩
      rintro (inHeader | written)
      · exact header inHeader
      · exact (after.serve_apart older).symm.disjoint inside (new _ written)
  | grown after _ changes _ =>
      have added := after.added_apart
        ((ArenaView.serve_blocks _ _).trans (a.extend_blocks _ _))
      refine ⟨held_changeArena member inAllocs _, changes p ?_⟩
      rintro ((inHeader | inBlock) | written)
      · exact header inHeader
      · exact (added _ (List.mem_append_left _ block)).disjoint inBlock within
      · exact (after.serve_apart older).symm.disjoint inside (new _ written)
  | wasted after _ changes _ =>
      have added := after.added_apart (a.extend_blocks _ _)
      refine ⟨⟨b.client, member, rfl, inAllocs⟩, changes p ?_⟩
      rintro (inHeader | inBlock)
      · exact header inHeader
      · exact (added _ (List.mem_append_left _ block)).disjoint inBlock within

/-- **Every call leaves the allocations alone that it spares.** -/
theorem stays_call (perm : s.arenas.Perm (views.map ArenaView.client)) {call : ArenaCall}
    (allowed : s.Allows call) (spares : call.Spares b.address p) {result : PtrResult}
    (performed : s.perform core platform call = some (s', result)) :
    Stays s s' b.address x p := by
  cases call with
  | create capacity answer =>
      cases performed
      exact stays_create inViews inAllocs inside member
        (arenaMakeFirst_outcome core heap false answer allowed ⟨allowed, allowed⟩)
  | createGrowable initialChunkSize maxChunkSize answer =>
      cases performed
      exact stays_create inViews inAllocs inside member
        (arenaCreateGrowable_outcome core heap answer allowed)
  | allocate arena size alignment answer =>
      obtain ⟨⟨h, live, rfl⟩, sizeWord, alignmentWord⟩ := allowed
      obtain ⟨a, rest, rfl, split, first, _⟩ := ArenaInv.split heap perm live
      cases performed
      exact stays_allocate inViews inAllocs inside member heap split
        (fun _ => Set.empty_subset _)
        (arenaAllocate_outcome core first sizeWord alignmentWord answer)
  | copyString arena source answer =>
      obtain ⟨h, live, rfl⟩ := allowed
      obtain ⟨a, rest, rfl, split, first, _⟩ := ArenaInv.split heap perm live
      cases performed
      exact stays_allocate inViews inAllocs inside member heap split
        (fun _ => Set.Subset.refl _) (arenaCopyString_outcome core first source answer)
  | reset arena =>
      obtain ⟨h, live, rfl⟩ := allowed
      obtain ⟨a, rest, rfl, split, first, _⟩ := ArenaInv.split heap perm live
      obtain ⟨w', reset, _, _, changes⟩ := arenaReset_outcome first
      obtain ⟨w, returns, rfl⟩ := ArenaState.perform_reset performed
      obtain rfl := Option.some.inj (returns.symm.trans reset)
      have shape := first.shape a List.mem_cons_self
      exact stays_giveUp inViews inAllocs inside heap split spares
        (held_other member inAllocs spares) (changes.mono (ArenaView.headerBytes_subset shape))
  | resetSecure arena =>
      obtain ⟨h, live, rfl⟩ := allowed
      obtain ⟨a, rest, rfl, split, first, _⟩ := ArenaInv.split heap perm live
      obtain ⟨w', reset, _, _, changes⟩ := arenaResetSecure_outcome core first
      obtain ⟨w, returns, rfl⟩ := ArenaState.perform_resetSecure performed
      obtain rfl := Option.some.inj (returns.symm.trans reset)
      have shape := first.shape a List.mem_cons_self
      exact stays_giveUp inViews inAllocs inside heap split spares
        (held_other member inAllocs spares)
        (changes.mono (Set.union_subset (ArenaView.headerBytes_subset shape)
          (ArenaView.usedPayloads_subset shape)))
  | releasePages arena =>
      obtain ⟨h, live, rfl⟩ := allowed
      obtain ⟨a, rest, rfl, split, first, _⟩ := ArenaInv.split heap perm live
      obtain ⟨w, returns, rfl⟩ := ArenaState.perform_releasePages performed
      obtain rfl := Option.some.inj (returns.symm.trans (arenaReleasePages_outcome first))
      exact ⟨⟨b.client, member, rfl, inAllocs⟩, rfl⟩
  | destroy arena =>
      obtain ⟨h, live, rfl⟩ := allowed
      obtain ⟨a, rest, rfl, split, first, _⟩ := ArenaInv.split heap perm live
      obtain ⟨w', destroyed, _, _, mem⟩ := arenaDestroy_outcome first
      obtain ⟨w, returns, rfl⟩ := ArenaState.perform_destroy performed
      obtain rfl := Option.some.inj (returns.symm.trans destroyed)
      refine stays_giveUp inViews inAllocs inside heap split spares
        ⟨b.client, ?_, rfl, inAllocs⟩ (mem ▸ ChangesOnly.refl _ _)
      exact List.mem_filter.mpr ⟨member, decide_eq_true spares.symm⟩
  | write address bytes =>
      cases performed
      exact ⟨⟨b.client, member, rfl, inAllocs⟩,
        changesOnly_storeBytes s.world.mem address bytes p spares⟩

end keeps

/-! ## Every run -/

/-- **A step leaves the allocations alone that it spares.** -/
theorem ArenaInv.keeps (inv : ArenaInv platform foreign s) {event : ArenaEvent} {h : LiveArena}
    (member : h ∈ s.arenas) (inAllocs : x ∈ h.allocs) {p : Nat} (inside : p ∈ x.extent.bytes)
    (spares : event.call.Spares h.address p)
    (step : (arenaSystem core platform foreign).Next s event s') :
    Stays s s' h.address x p := by
  obtain ⟨views, heap, perm⟩ := inv
  obtain ⟨b, inViews, rfl⟩ := List.mem_map.mp (perm.mem_iff.mp member)
  exact stays_call inViews inAllocs inside member heap perm step.1 spares step.2

/-- What a run from a state leaves alone when its steps spare it. -/
structure RunStays (platform : Platform) (foreign : List Extent) (s : ArenaState) (arena : Nat)
    (x : Alloc) (p : Nat) (events : List ArenaEvent) (t : ArenaState) : Prop where
  inv : ArenaInv platform foreign t
  stays : (∀ event ∈ events, event.call.Spares arena p) → Stays s t arena x p

theorem RunStays.step {t t' : ArenaState} {arena p : Nat} {events : List ArenaEvent}
    {event : ArenaEvent} (run : RunStays platform foreign s arena x p events t)
    (inside : p ∈ x.extent.bytes) (step : (arenaSystem core platform foreign).Next t event t') :
    RunStays platform foreign s arena x p (events ++ [event]) t' := by
  refine ⟨run.inv.step step, ?_⟩
  intro spares
  obtain ⟨⟨g, live, rfl, held⟩, same⟩ :=
    run.stays fun event earlier => spares event (List.mem_append_left _ earlier)
  have last := spares event (List.mem_append_right _ List.mem_cons_self)
  obtain ⟨again, kept⟩ := run.inv.keeps live held inside last step
  exact ⟨again, kept.trans same⟩

/-- **A run leaves the allocations alone that its steps spare.** -/
theorem arena_run_stays {t : ArenaState} {events : List ArenaEvent} {h : LiveArena}
    (reachable : (arenaSystem core platform foreign).Reachable s)
    (run : (arenaSystem core platform foreign).Run s events t) (member : h ∈ s.arenas)
    (inAllocs : x ∈ h.allocs) {p : Nat} (inside : p ∈ x.extent.bytes)
    (spares : ∀ event ∈ events, event.call.Spares h.address p) : Stays s t h.address x p := by
  have start : RunStays platform foreign s h.address x p [] s :=
    ⟨ArenaInv.reachable reachable, fun _ => ⟨⟨h, member, rfl, inAllocs⟩, rfl⟩⟩
  exact (run.traced (fun before step => before.step inside step) start).stays spares

/-! ## Copies of strings -/

/-- The bytes of a string, up to its terminator. -/
structure IsString (m : Memory) (source len : Nat) : Prop where
  terminated : m (source + len) = 0
  nonzero : ∀ i < len, m (source + i) ≠ 0

/-- A byte where a client may have a string: in an allocation of an arena, in the
region of the pool, or in what others have mapped. -/
def ArenaState.Readable (s : ArenaState) (foreign : List Extent) (p : Nat) : Prop :=
  (∃ h ∈ s.arenas, ∃ x ∈ h.allocs, p ∈ x.extent.bytes) ∨
    p ∈ Extent.bytes ⟨s.world.ctx.region.base, s.world.ctx.region.totalSize⟩ ∨
    ∃ e ∈ foreign, p ∈ e.bytes

/-- A request that succeeds adds an allocation, perhaps in a new chunk, and writes to
the blocks of the arena only. -/
theorem ArenaAllocateOutcome.granted {result : World × PtrResult}
    (heap : ArenaHeap platform w (a :: rest) foreign)
    (outcome : ArenaAllocateOutcome core platform w a rest foreign size alignment answer
      (fun _ => ∅) result) (ok : result.2.ok = true) :
    ∃ b : ArenaView, b.allocs = a.allocs ∧
      ArenaHeap platform result.1 (b.serve ⟨result.2.out, size, alignment⟩ :: rest) foreign ∧
      ChangesOnly (blockBytes b.blocks) w.mem result.1.mem ∧
      result.1.ctx.ownBlocks = w.ctx.ownBlocks := by
  have headers := ArenaView.headerBytes_subset (heap.shape a List.mem_cons_self)
  cases outcome with
  | refused idle => cases ok
  | served after context changes _ =>
      refine ⟨a, rfl, after, changes.mono ?_, by rw [context]⟩
      exact Set.union_subset headers (Set.empty_subset _)
  | @grown w' block mmapSize _ after update changes _ =>
      refine ⟨a.extend block mmapSize, rfl, after, changes.mono ?_, update.fixed.2.2.2.2⟩
      rintro p ((inHeader | inBlock) | nothing)
      · obtain ⟨e, member, inside⟩ := headers inHeader
        refine ⟨e, ?_, inside⟩
        rw [a.extend_blocks]
        exact List.mem_append_left _ member
      · refine ⟨⟨block, mmapSize⟩, ?_, inBlock⟩
        rw [a.extend_blocks]
        exact List.mem_append_right _ List.mem_cons_self
      · cases nothing
  | wasted _ _ _ _ => cases ok

/-- **A readable byte is read after the allocation as before**, and it is not in the
allocation. -/
theorem readable_kept (inv : ArenaInv platform foreign s)
    (reachable : (arenaSystem core platform foreign).Reachable s) {arena p : Nat}
    (live : s.Live arena) (sizeWord : size < 2 ^ 64) (alignmentWord : alignment < 2 ^ 64)
    (readable : s.Readable foreign p) {result : World × PtrResult}
    (allocated : arenaAllocate core platform s.world arena size alignment answer = result)
    (ok : result.2.ok = true) :
    result.1.mem p = s.world.mem p ∧ p ∉ Extent.bytes ⟨result.2.out, size⟩ := by
  obtain ⟨views, heap, perm⟩ := inv
  have next : (arenaSystem core platform foreign).Reachable
      (s.allocated arena size alignment result).1 := by
    refine reachable.next (show (arenaSystem core platform foreign).Next s
      ⟨.allocate arena size alignment answer, result.2⟩ _ from
      ⟨⟨live, sizeWord, alignmentWord⟩, ?_⟩)
    rw [ArenaState.perform, allocated]
    rfl
  obtain ⟨h, member, rfl⟩ := live
  obtain ⟨a, rest, rfl, split, first, _⟩ := ArenaInv.split heap perm member
  have outcome := arenaAllocate_outcome core first sizeWord alignmentWord answer
  rw [show arenaAllocate core platform s.world a.address size alignment answer = result from
    allocated] at outcome
  obtain ⟨b, allocs, after, changes, own⟩ := outcome.granted first ok
  -- what is apart from all blocks of the arenas is apart from what is written
  have outside : ∀ e : Extent, (∀ f ∈ arenaBlocks (b.serve ⟨result.2.out, size, alignment⟩ :: rest),
      f.Apart e) → p ∈ e.bytes →
      result.1.mem p = s.world.mem p ∧ p ∉ Extent.bytes ⟨result.2.out, size⟩ := by
    intro e apart inside
    constructor
    · refine changes p ?_
      rintro ⟨f, inFirst, within⟩
      refine (apart f (List.mem_append_left _ ?_)).disjoint within inside
      rwa [ArenaView.serve_blocks]
    · intro within
      obtain ⟨c, inChunks, inBlock, _⟩ := after.alloc_inside List.mem_cons_self
        (List.mem_cons_self : ⟨result.2.out, size, alignment⟩ ∈ _ :: b.allocs) within
      exact (apart c.extent (List.mem_append_left _ (List.mem_map_of_mem inChunks))).disjoint
        inBlock inside
  rcases readable with ⟨g, live, x, inAllocs, inside⟩ | inRegion | ⟨e, others, inside⟩
  · obtain ⟨d, inViews, rfl⟩ := List.mem_map.mp (perm.mem_iff.mp live)
    have stays := stays_allocate inViews inAllocs inside live heap split
      (fun _ => Set.empty_subset _) outcome
    refine ⟨stays.same, ?_⟩
    have older : x ∈ b.allocs ++ rest.flatMap ArenaView.allocs := by
      rw [allocs]
      exact List.mem_flatMap.mpr ⟨d, split.mem_iff.mp inViews, inAllocs⟩
    exact (after.serve_apart older).symm.disjoint inside
  · refine outside _ (fun f member => ?_) inRegion
    have apart := (List.pairwise_append.mp after.ledger.apart).2.2 f
      (List.mem_append_left _ member)
    rw [own] at apart
    exact apart _ (List.mem_cons_of_mem _ List.mem_cons_self)
  · refine outside e (fun f member => ?_) inside
    exact foreign_apart next after f (List.mem_append_left _ member) e others

/-- Two ranges that share no address follow one another. -/
theorem ranges_apart {dst src n : Nat} (pos : 0 < n)
    (apart : ∀ i < n, src + i ∉ Set.Ico dst (dst + n)) : dst + n ≤ src ∨ src + n ≤ dst := by
  by_contra both
  obtain ⟨below, above⟩ := not_or.mp both
  rcases Nat.le_total dst src with le | le
  · exact apart 0 pos ⟨le, Nat.lt_of_not_le below⟩
  · refine apart (dst - src) (by omega) ⟨?_, ?_⟩ <;> omega

/-- **A copied string equals its source**, terminator included. -/
theorem copyString_eq (core : BcCore) (reachable : (arenaSystem core platform foreign).Reachable s)
    {arena source len ptr : Nat} (live : s.Live arena) (word : len < 2 ^ 64)
    (string : IsString s.world.mem source len)
    (readable : ∀ i ≤ len, s.Readable foreign (source + i))
    (performed : s.perform core platform (.copyString arena source answer) =
      some (s', ⟨true, ptr⟩)) :
    (∃ h ∈ s'.arenas, h.address = arena ∧ ⟨ptr, len + 1, 1⟩ ∈ h.allocs) ∧
      loadBytes s'.world.mem ptr (len + 1) = loadBytes s.world.mem source (len + 1) := by
  have length : core.length s.world.mem source = len :=
    core.length_eq word string.terminated string.nonzero
  cases allocated : arenaAllocate core platform s.world arena (wadd len 1) 1 answer with
  | mk w' result =>
      obtain ⟨ok, out⟩ := result
      rw [ArenaState.perform, arenaCopyString, length, allocated] at performed
      cases ok with
      | false =>
          have failed := congrArg (fun r => r.map fun t => t.2.ok) performed
          cases failed
      | true =>
          simp only [ArenaState.allocated, if_true, Option.some.injEq, Prod.mk.injEq,
            PtrResult.mk.injEq, true_and] at performed
          obtain ⟨rfl, rfl⟩ := performed
          -- a string of `SIZE_MAX` bytes leaves no room for its terminator
          have small : len + 1 < 2 ^ 64 := by
            by_contra large
            have none : wadd len 1 = 0 := by
              rw [show len = 2 ^ 64 - 1 by omega]
              rfl
            rw [none, arenaAllocate, if_pos (Or.inl rfl)] at allocated
            cases allocated
          rw [wadd_of_lt small] at allocated ⊢
          have kept : ∀ i < len + 1, w'.mem (source + i) = s.world.mem (source + i) ∧
              source + i ∉ Set.Ico out (out + (len + 1)) := fun i within =>
            readable_kept (ArenaInv.reachable reachable) reachable live small (by decide)
              (readable i (Nat.le_of_lt_succ within)) allocated rfl
          constructor
          · obtain ⟨h, member, rfl⟩ := live
            refine ⟨_, List.mem_map_of_mem member, ?_⟩
            rw [if_pos rfl]
            exact ⟨rfl, List.mem_cons_self⟩
          · have apart := ranges_apart (Nat.succ_pos len) fun i within => (kept i within).2
            rw [ArenaState.after, core.copy_eq apart, loadBytes_copyBytes]
            exact loadBytes_eq_iff.mpr fun i within => (kept i within).1

/-- **Arena contents are stable.** After `copy_string` the copy equals its source,
terminator included, and in every later run it stays where it is and what it is, as
does every byte of every allocation, as long as no step gives up the allocations of
its arena or is a write to the byte. -/
theorem arena_contents_stable (core : BcCore) (platform : Platform) (foreign : List Extent)
    (reachable : (arenaSystem core platform foreign).Reachable s) :
    (∀ (arena source len : Nat) (answer : Option Nat) (s' : ArenaState) (ptr : Nat),
      s.Live arena → len < 2 ^ 64 → IsString s.world.mem source len →
      (∀ i ≤ len, s.Readable foreign (source + i)) →
      s.perform core platform (.copyString arena source answer) = some (s', ⟨true, ptr⟩) →
      ∀ (t : ArenaState) (events : List ArenaEvent),
        (arenaSystem core platform foreign).Run s' events t →
        (∀ event ∈ events, ∀ p ∈ Set.Ico ptr (ptr + (len + 1)), event.call.Spares arena p) →
        (∃ h ∈ t.arenas, h.address = arena ∧ ⟨ptr, len + 1, 1⟩ ∈ h.allocs) ∧
          loadBytes t.world.mem ptr (len + 1) = loadBytes s.world.mem source (len + 1)) ∧
    (∀ h ∈ s.arenas, ∀ x ∈ h.allocs, ∀ p ∈ x.extent.bytes, ∀ (t : ArenaState)
      (events : List ArenaEvent), (arenaSystem core platform foreign).Run s events t →
      (∀ event ∈ events, event.call.Spares h.address p) → Stays s t h.address x p) := by
  constructor
  · intro arena source len answer s' ptr live word string readable performed t events run spares
    obtain ⟨⟨h, member, rfl, inAllocs⟩, copied⟩ :=
      copyString_eq core reachable live word string readable performed
    have next := reachable.next (show (arenaSystem core platform foreign).Next s
      ⟨.copyString h.address source answer, _⟩ s' from ⟨live, performed⟩)
    have stays : ∀ p ∈ Set.Ico ptr (ptr + (len + 1)), Stays s' t h.address ⟨ptr, len + 1, 1⟩ p :=
      fun p inside => arena_run_stays next run member inAllocs inside fun event occurs =>
        spares event occurs p inside
    have first := stays ptr ⟨Nat.le_refl ptr, Nat.lt_add_of_pos_right (Nat.succ_pos len)⟩
    refine ⟨first.held, (loadBytes_congr fun p lower upper => ?_).trans copied⟩
    exact (stays p ⟨lower, upper⟩).same
  · intro h member x inAllocs p inside t events run spares
    exact arena_run_stays reachable run member inAllocs inside spares

/-- The arena with the string "ab" in its allocation. -/
def oneString : ArenaState :=
  oneAllocation.after
    { oneAllocation.world with mem := storeBytes oneAllocation.world.mem 131200 [97, 98, 0] }
    oneAllocation.arenas

theorem oneString_reachable :
    (arenaSystem BcCore.reference Platform.x86 []).Reachable oneString :=
  oneAllocation_reachable.next
    (show (arenaSystem BcCore.reference Platform.x86 []).Next oneAllocation
        ⟨.write 131200 [97, 98, 0], _⟩ oneString from
      ⟨⟨⟨131072, [⟨131200, 24, 16⟩]⟩, by decide, ⟨131200, 24, 16⟩, by decide, by decide,
        by decide⟩, rfl⟩)

/-- The string is copied within its own arena. -/
def copiedString : ArenaEvent × ArenaState :=
  oneString.event BcCore.reference Platform.x86 (.copyString 131072 131200 none)

/-- The arena grows, another one is made, used and reset, and the source is overwritten. -/
def laterCalls : List ArenaCall :=
  [.allocate 131072 5000 1 (some 262144), .createGrowable 100 0 (some 393216),
    .allocate 393216 16 8 none, .write 393344 [9], .reset 393216, .write 131200 [120, 121]]

/-- The calls after the copy. -/
def laterRun : List ArenaEvent × ArenaState :=
  System.performAll (ArenaState.event BcCore.reference Platform.x86) copiedString.2 laterCalls

/-- The copy still is the string that the source was. -/
theorem arena_contents_stable_laterRun :
    ((∃ h ∈ laterRun.2.arenas, h.address = 131072 ∧ ⟨131224, 2 + 1, 1⟩ ∈ h.allocs) ∧
        loadBytes laterRun.2.world.mem 131224 (2 + 1) =
          loadBytes oneString.world.mem 131200 (2 + 1)) ∧
      Stays copiedString.2 laterRun.2 131072 ⟨131200, 24, 16⟩ 131210 ∧
      loadBytes laterRun.2.world.mem 131200 3 = [120, 121, 0] ∧
      arenaChain laterRun.2.world.mem 131072 = [131136, 262144] := by
  have live : (⟨131072, [⟨131200, 24, 16⟩]⟩ : LiveArena) ∈ oneString.arenas := by decide
  have readable : ∀ i ≤ 2, oneString.Readable [] (131200 + i) := by
    intro i small
    refine Or.inl ⟨_, live, ⟨131200, 24, 16⟩, List.mem_cons_self, ?_⟩
    exact ⟨Nat.le_add_right _ _, Nat.add_lt_add_left (show i < 24 by omega) 131200⟩
  have event : copiedString.1 = ⟨.copyString 131072 131200 none, ⟨true, 131224⟩⟩ := by
    decide +kernel
  have copies : oneString.Allows (.copyString 131072 131200 none) := ⟨_, live, rfl⟩
  have step : (arenaSystem BcCore.reference Platform.x86 []).Next oneString copiedString.1
      copiedString.2 := arena_event_next oneString_reachable copies
  have copied := oneString_reachable.next step
  rw [event] at step
  have allowed : System.AllowsAll (ArenaState.event BcCore.reference Platform.x86)
      ArenaState.Allows copiedString.2 laterCalls := by decide +kernel
  have run : (arenaSystem BcCore.reference Platform.x86 []).Run copiedString.2 laterRun.1
      laterRun.2 := arenaRun_calls copied allowed
  have calls : laterRun.1.map ArenaEvent.call = laterCalls := by decide +kernel
  have spares : ∀ p, 131202 ≤ p → p < 131227 → ∀ event ∈ laterRun.1,
      event.call.Spares 131072 p := by
    intro p lower upper event occurs
    have call : event.call ∈ laterCalls := calls ▸ List.mem_map_of_mem occurs
    simp only [laterCalls, List.mem_cons, List.not_mem_nil, or_false] at call
    rcases call with same | same | same | same | same | same <;>
      simp [same, ArenaCall.Spares]
    all_goals omega
  have holds : (⟨131072, [⟨131224, 3, 1⟩, ⟨131200, 24, 16⟩]⟩ : LiveArena) ∈
      copiedString.2.arenas := by decide +kernel
  have stays := arena_contents_stable BcCore.reference Platform.x86 [] oneString_reachable
  have kept := arena_contents_stable BcCore.reference Platform.x86 [] copied
  refine ⟨stays.1 131072 131200 2 none _ 131224 ⟨_, live, rfl⟩ (by decide) ⟨by decide, by decide⟩
      readable step.2 _ _ run fun event occurs p inside => ?_,
    kept.2 _ holds ⟨131200, 24, 16⟩ (by decide) 131210 ⟨by decide, by decide⟩ _ _ run
      (spares _ (by decide) (by decide)),
    by decide +kernel, by decide +kernel⟩
  exact spares p (Nat.le_trans (by decide) inside.1) inside.2 event occurs

end BcAllocators
