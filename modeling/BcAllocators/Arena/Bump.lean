import BcAllocators.Arena.Guarantee

/-!
# Arenas as bump allocators

An arena is for cutting allocations from a payload, one behind the other. `BumpArena`
states this: a request gets the first aligned address behind the used bytes when it
fits in the payload, and a request that does not fit is refused or moves a growable
arena to another payload (`BumpArena.Answers`). A reset goes back to the first payload,
with nothing used.

The headers of an arena hold such a bump allocator (`arenaBump`). Every call answers as
it does and leaves the bump allocators of all other arenas alone
(`ArenaInv.bump_step`), so it runs beside the arena from its creation to its
destruction (`arena_refines_bump`). What the kernel, the cache and other arenas do
shows only where a new payload lies.
-/

set_option autoImplicit false

namespace BcAllocators

open Machine

variable {core : BcCore} {platform : Platform} {foreign : List Extent} {s s' : ArenaState}
variable {w w' : World} {a c d : ArenaView} {views rest : List ArenaView}
variable {arena size alignment : Nat} {answer : Option Nat}

/-! ## The bump allocator -/

/-- Bytes to cut allocations from. -/
structure Payload where
  start : Nat
  capacity : Nat
deriving DecidableEq, Repr

/-- A bump allocator with a payload to return to. -/
structure BumpArena where
  first : Payload
  current : Payload
  used : Nat
  growable : Bool
deriving DecidableEq, Repr

namespace BumpArena

variable (b : BumpArena)

/-- The first aligned address behind the used bytes. -/
def place (alignment : Nat) : Nat := roundUp (b.current.start + b.used) alignment

/-- The payload has room for a request. -/
def Fits (size alignment : Nat) : Prop :=
  b.place alignment + size ≤ b.current.start + b.current.capacity

/-- The bytes in front of the place are used, and those of the request. -/
def take (size alignment : Nat) : BumpArena :=
  { b with used := b.place alignment + size - b.current.start }

/-- Cut from another payload. -/
def move (p : Payload) : BumpArena := { b with current := p, used := 0 }

/-- Go back to the first payload. -/
def reset : BumpArena := b.move b.first

/-- What may be asked for: some bytes at a power of two. -/
def Proper (size alignment : Nat) : Prop := 0 < size ∧ alignment.isPowerOfTwo

/-- **The answers to a request.** A request that fits is served at its place. One that
does not is refused, or it moves a growable arena to another payload that it fits in; a
request that is so large that the sum of its size and its alignment wraps may move the
arena for nothing. -/
inductive Answers (size alignment : Nat) : PtrResult → BumpArena → Prop where
  | improper (improper : ¬ Proper size alignment) : Answers size alignment .failed b
  | served (proper : Proper size alignment) (fits : b.Fits size alignment) :
      Answers size alignment ⟨true, b.place alignment⟩ (b.take size alignment)
  | refused (proper : Proper size alignment) (full : ¬ b.Fits size alignment) :
      Answers size alignment .failed b
  | moved (p : Payload) (proper : Proper size alignment) (full : ¬ b.Fits size alignment)
      (growable : b.growable = true) (fits : (b.move p).Fits size alignment) :
      Answers size alignment ⟨true, (b.move p).place alignment⟩ ((b.move p).take size alignment)
  | wasted (p : Payload) (proper : Proper size alignment) (full : ¬ b.Fits size alignment)
      (growable : b.growable = true) (wraps : 2 ^ 64 ≤ size + alignment) :
      Answers size alignment .failed (b.move p)

/-- A failed request returns null. -/
theorem Answers.of_failed {b b' : BumpArena} {size alignment : Nat} {result : PtrResult}
    (answers : b.Answers size alignment result b') (failed : result.ok = false) :
    result = .failed := by
  cases answers with
  | improper => rfl
  | served => cases failed
  | refused => rfl
  | moved => cases failed
  | wasted => rfl

end BumpArena

/-- The call resets an arena. -/
inductive ArenaCall.Resets : ArenaCall → Nat → Prop where
  | reset (arena : Nat) : Resets (.reset arena) arena
  | resetSecure (arena : Nat) : Resets (.resetSecure arena) arena

/-- What a call means for the bump allocator of one arena. -/
inductive BumpStep (core : BcCore) (arena : Nat) (s : ArenaState) (event : ArenaEvent)
    (b : BumpArena) : BumpArena → Prop where
  | request {size alignment : Nat} {b' : BumpArena}
      (asks : event.call.Asks core s arena size alignment)
      (answers : b.Answers size alignment event.result b') : BumpStep core arena s event b b'
  | reset (resets : event.call.Resets arena) : BumpStep core arena s event b b.reset
  | other (silent : ∀ size alignment, ¬ event.call.Asks core s arena size alignment)
      (kept : ¬ event.call.Resets arena) : BumpStep core arena s event b b

/-! ## The bump allocator of an arena -/

/-- The payload of a chunk. -/
def chunkPayload (m : Memory) (chunk : Nat) : Payload :=
  ⟨chunkMemoryStart m chunk, chunkCapacity m chunk⟩

/-- The bump allocator that the headers of an arena hold. -/
def arenaBump (m : Memory) (arena : Nat) : BumpArena where
  first := chunkPayload m (arenaFirstChunk m arena)
  current := chunkPayload m (arenaCurrentChunk m arena)
  used := chunkUsed m (arenaCurrentChunk m arena)
  growable := arenaGrowable m arena

def Chunk.payload (c : Chunk) : Payload := ⟨c.start, c.capacity⟩

namespace ArenaView

/-- The bump allocator of a view. -/
def bump (a : ArenaView) : BumpArena :=
  ⟨a.first.payload, a.last.payload, a.last.used, a.growable⟩

/-- **The headers of a represented arena** hold its bump allocator. -/
theorem At.bump {m : Memory} {ctx : Nat} (here : a.At m ctx) : arenaBump m a.address = a.bump := by
  have first : arenaFirstChunk m a.address = a.first.header := firstChunk_of_header here.header
  have current : arenaCurrentChunk m a.address = a.last.header :=
    currentChunk_of_header here.header
  have growable : arenaGrowable m a.address = a.growable := congrArg ArenaHeader.growable here.header
  have firstAt := here.chunks a.first a.first_mem
  have lastAt := here.chunks a.last a.last_mem
  simp only [arenaBump, chunkPayload, first, current, growable, firstAt.memoryStart,
    firstAt.capacity, lastAt.memoryStart, lastAt.capacity, lastAt.used]
  rfl

theorem Shown.bump (shown : a.Shown platform foreign w) : arenaBump w.mem a.address = a.bump :=
  shown.here.bump

/-- A request fits when it ends inside the block. -/
theorem fits_iff (shape : a.Shape) :
    a.bump.Fits size alignment ↔ a.last.offer alignment + size ≤ a.last.stop := by
  have whole := (shape.fit a.last a.last_mem).start_add_capacity
  rw [← whole]
  rfl

theorem serve_first_payload (a : ArenaView) (x : Alloc) :
    (a.serve x).first.payload = a.first.payload := by
  cases front : a.front with
  | nil => simp [serve, first, front, Chunk.payload, Chunk.start, Chunk.capacity]
  | cons c rest => simp [serve, first, front]

/-- A request that is served takes its bytes. -/
theorem serve_bump (a : ArenaView) (size alignment : Nat) :
    (a.serve ⟨a.last.offer alignment, size, alignment⟩).bump = a.bump.take size alignment := by
  rw [bump, serve_first_payload]
  rfl

theorem extend_bump (a : ArenaView) (block mmapSize : Nat) :
    (a.extend block mmapSize).bump = a.bump.move (Chunk.payload ⟨block, 0, mmapSize, 0⟩) := by
  rw [bump, extend_first]
  rfl

end ArenaView

/-! ## Requests -/

/-- A growth that fails leaves the world as it is. -/
theorem arenaGrow_failed {need : Nat}
    (failed : arenaGrow core platform w arena need answer = (w', false)) : w' = w := by
  simp only [arenaGrow] at failed
  split at failed
  · cases failed
    rfl
  split at failed
  · cases failed
    rfl
  · cases failed

/-- A new chunk has room for what it was made for. -/
theorem ArenaView.le_grownSize (platform : Platform) (a : ArenaView) (need : Nat) :
    chunkHeaderAligned + need ≤ a.grownSize platform need :=
  (Nat.add_le_add_left (le_targetCapacity _ _ need) _).trans (le_roundUp platform.pageSize_pos)

/-- **An arena answers a request as its bump allocator does.** -/
theorem ArenaHeap.allocate_answers (core : BcCore)
    (heap : ArenaHeap platform w (a :: rest) foreign) (sizeWord : size < 2 ^ 64)
    (alignmentWord : alignment < 2 ^ 64) (answer : Option Nat) {result : World × PtrResult}
    (allocated : arenaAllocate core platform w a.address size alignment answer = result) :
    ∃ b, ArenaHeap platform result.1 (b :: rest) foreign ∧ b.address = a.address ∧
      a.bump.Answers size alignment result.2 b.bump ∧
      (result.2.ok = true → ∃ x ∈ b.allocs, x.extent = ⟨result.2.out, size⟩) := by
  have shape := heap.shape a List.mem_cons_self
  have here := heap.here a List.mem_cons_self
  have held : ∀ {b : ArenaView}, (PtrResult.failed).ok = true →
      ∃ x ∈ b.allocs, x.extent = ⟨PtrResult.failed.out, size⟩ := by
    rintro _ ⟨⟩
  simp only [arenaAllocate] at allocated
  by_cases zero : size = 0 ∨ alignment = 0
  · rw [if_pos zero] at allocated
    subst allocated
    refine ⟨a, heap, rfl, .improper fun proper => ?_, held⟩
    rcases zero with none | none
    · exact Nat.ne_of_gt proper.1 none
    · exact Nat.ne_of_gt (isPowerOfTwo_pos proper.2) none
  rw [if_neg zero] at allocated
  obtain ⟨nonzero, nonzero'⟩ := not_or.mp zero
  by_cases odd : alignment &&& (alignment - 1) ≠ 0
  · rw [if_pos odd] at allocated
    subst allocated
    exact ⟨a, heap, rfl, .improper fun proper => (alignment_test.mpr proper.2).2 odd, held⟩
  rw [if_neg odd] at allocated
  have power := alignment_test.mp ⟨nonzero', odd⟩
  have sizePos := Nat.pos_of_ne_zero nonzero
  have proper : BumpArena.Proper size alignment := ⟨sizePos, power⟩
  rcases heap.allocate_last core sizePos sizeWord alignmentWord power with
    ⟨fits, m, served, after, _⟩ | ⟨full, tried⟩
  · rw [served] at allocated
    subst allocated
    refine ⟨_, after, (a.serve_first _).1, ?_, fun _ => ⟨_, List.mem_cons_self, rfl⟩⟩
    rw [a.serve_bump]
    exact .served proper ((ArenaView.fits_iff shape).mpr fits)
  have full : ¬ a.bump.Fits size alignment := fun fits => full ((ArenaView.fits_iff shape).mp fits)
  rw [tried] at allocated
  by_cases fixed : arenaGrowable w.mem a.address = false
  · dsimp only at allocated
    rw [if_pos fixed] at allocated
    subst allocated
    exact ⟨a, heap, rfl, .refused proper full, held⟩
  dsimp only at allocated
  rw [if_neg fixed] at allocated
  have growable : a.bump.growable = true := by
    rw [← here.bump]
    exact Bool.of_not_eq_false fixed
  cases grew : arenaGrow core platform w a.address (wadd size alignment) answer with
  | mk w₁ ok =>
  rw [grew] at allocated
  cases ok with
  | false =>
      obtain rfl := arenaGrow_failed grew
      subst allocated
      exact ⟨a, heap, rfl, .refused proper full, held⟩
  | true =>
      obtain ⟨block, grown⟩ := heap.grows core (wadd_lt size alignment) grew
      have room := a.le_grownSize platform (wadd size alignment)
      generalize a.grownSize platform (wadd size alignment) = mmapSize at grown room
      have address := a.extend_address block mmapSize
      have moved := a.extend_bump block mmapSize
      have newShape := grown.shape _ List.mem_cons_self
      dsimp only at allocated
      rcases grown.allocate_last core sizePos sizeWord alignmentWord power with
        ⟨fits, m, served, after, _⟩ | ⟨tooBig, tried⟩
      · rw [address] at served after
        rw [served] at allocated
        subst allocated
        have fits := (ArenaView.fits_iff newShape).mpr fits
        rw [moved] at fits
        refine ⟨_, after, (ArenaView.serve_first _ _).1.trans address, ?_,
          fun _ => ⟨_, List.mem_cons_self, rfl⟩⟩
        rw [ArenaView.serve_bump, moved]
        exact .moved _ proper full growable fits
      · rw [address] at tried
        rw [tried] at allocated
        subst allocated
        refine ⟨_, grown, address, ?_, held⟩
        rw [moved]
        -- a request whose sum does not wrap would have been served
        refine .wasted _ proper full growable ?_
        by_contra small
        rw [wadd_of_lt (Nat.lt_of_not_le small)] at room
        exact tooBig (Chunk.offer_new (isPowerOfTwo_pos power) room)

/-- **A copied string** is a request for its bytes and the terminator. -/
theorem ArenaHeap.copyString_answers (core : BcCore)
    (heap : ArenaHeap platform w (a :: rest) foreign) (source : Nat) (answer : Option Nat)
    {result : World × PtrResult}
    (copied : arenaCopyString core platform w a.address source answer = result) :
    ∃ b, ArenaHeap platform result.1 (b :: rest) foreign ∧ b.address = a.address ∧
      a.bump.Answers (wadd (core.length w.mem source) 1) 1 result.2 b.bump := by
  have sizeWord := wadd_lt (core.length w.mem source) 1
  simp only [arenaCopyString] at copied
  generalize wadd (core.length w.mem source) 1 = size at sizeWord copied ⊢
  generalize allocated : arenaAllocate core platform w a.address size 1 answer = served at copied
  obtain ⟨b, after, address, answers, held⟩ :=
    heap.allocate_answers core sizeWord (by decide) answer allocated
  refine ⟨b, ?_⟩
  obtain ⟨w', ok, out⟩ := served
  cases ok with
  | false =>
      subst copied
      exact ⟨after, address, answers.of_failed rfl ▸ answers⟩
  | true =>
      subst copied
      obtain ⟨x, member, extent⟩ := held rfl
      refine ⟨after.payload ((core.copy_frame w'.mem out source size).mono ?_), address, answers⟩
      have used := (after.sound b List.mem_cons_self).mem_usedPayloads member
      rwa [extent] at used

/-! ## Calls -/

/-- An arena that is not the one that changes stays. -/
theorem ArenaView.stays (split : views.Perm (c :: rest)) (inViews : a ∈ views)
    (other : a.address ≠ c.address) (after : ArenaHeap platform w (d :: rest) foreign) :
    a.Shown platform foreign w := by
  rcases List.mem_cons.mp (split.mem_iff.mp inViews) with rfl | inRest
  · exact absurd rfl other
  · exact ⟨_, after, List.mem_cons_of_mem d inRest⟩

/-- The only arena at an address is in front. -/
theorem ArenaHeap.front_eq (heap : ArenaHeap platform w views foreign)
    (split : views.Perm (c :: rest)) (inViews : a ∈ views) (same : a.address = c.address) :
    a = c := by
  rcases List.mem_cons.mp (split.mem_iff.mp inViews) with here | inRest
  · exact here
  · exact absurd same ((heap.perm split.symm).address_ne a inRest)

/-- A request goes to one arena. -/
theorem ArenaCall.Asks.target {call : ArenaCall} {other size' alignment' : Nat}
    (asks : call.Asks core s arena size alignment)
    (again : call.Asks core s other size' alignment') : other = arena := by
  cases asks with
  | allocate =>
      cases again
      rfl
  | copyString =>
      cases again
      rfl

/-- A reset is of one arena. -/
theorem ArenaCall.Resets.target {call : ArenaCall} {other : Nat} (resets : call.Resets arena)
    (again : call.Resets other) : other = arena := by
  cases resets with
  | reset =>
      cases again
      rfl
  | resetSecure =>
      cases again
      rfl

/-- A request resets nothing. -/
theorem ArenaCall.Asks.not_resets {call : ArenaCall} {other : Nat}
    (asks : call.Asks core s arena size alignment) : ¬ call.Resets other := by
  intro resets
  cases resets with
  | reset => cases asks
  | resetSecure => cases asks

section calls

variable {event : ArenaEvent} (shown : a.Shown platform foreign s.world)

include shown

/-- A call that leaves an arena as it is. -/
theorem ArenaView.Shown.stays (after : a.Shown platform foreign s'.world)
    (silent : ∀ size alignment, ¬ event.call.Asks core s a.address size alignment)
    (kept : ¬ event.call.Resets a.address) :
    BumpStep core a.address s event (arenaBump s.world.mem a.address)
      (arenaBump s'.world.mem a.address) := by
  rw [shown.bump, after.bump]
  exact .other silent kept

/-- A request to some arena, for any arena. -/
theorem ArenaView.Shown.asked {b : ArenaView} (heap : ArenaHeap platform s.world views foreign)
    (inViews : a ∈ views) (split : views.Perm (c :: rest))
    (asks : event.call.Asks core s c.address size alignment)
    (after : ArenaHeap platform s'.world (b :: rest) foreign) (address : b.address = c.address)
    (answers : c.bump.Answers size alignment event.result b.bump) :
    BumpStep core a.address s event (arenaBump s.world.mem a.address)
      (arenaBump s'.world.mem a.address) := by
  by_cases same : a.address = c.address
  · obtain rfl := heap.front_eq split inViews same
    have now : b.Shown platform foreign s'.world := ⟨_, after, List.mem_cons_self⟩
    have bump := now.bump
    rw [address] at bump
    rw [shown.bump, bump]
    exact .request asks answers
  · exact shown.stays (ArenaView.stays split inViews same after)
      (fun _ _ again => same (asks.target again)) asks.not_resets

/-- A reset of some arena, for any arena. -/
theorem ArenaView.Shown.cleared (heap : ArenaHeap platform s.world views foreign)
    (inViews : a ∈ views) (split : views.Perm (c :: rest)) (resets : event.call.Resets c.address)
    (after : ArenaHeap platform s'.world (c.reset :: rest) foreign) :
    BumpStep core a.address s event (arenaBump s.world.mem a.address)
      (arenaBump s'.world.mem a.address) := by
  by_cases same : a.address = c.address
  · obtain rfl := heap.front_eq split inViews same
    have now : a.reset.Shown platform foreign s'.world := ⟨_, after, List.mem_cons_self⟩
    have bump : arenaBump s'.world.mem a.address = a.bump.reset := now.bump
    rw [shown.bump, bump]
    exact .reset resets
  · exact shown.stays (ArenaView.stays split inViews same after)
      (fun _ _ asks => asks.not_resets resets) fun again => same (resets.target again)

end calls

/-- **Each call is a step of the bump allocator of each arena.** -/
theorem ArenaInv.bump_step (inv : ArenaInv platform foreign s) {event : ArenaEvent}
    (step : (arenaSystem core platform foreign).Next s event s') (live : s.Live arena)
    (spared : event.call ≠ .destroy arena) :
    BumpStep core arena s event (arenaBump s.world.mem arena) (arenaBump s'.world.mem arena) := by
  obtain ⟨views, heap, perm⟩ := inv
  obtain ⟨h, member, rfl⟩ := live
  obtain ⟨a, inViews, rfl⟩ := List.mem_map.mp (perm.mem_iff.mp member)
  have shown : a.Shown platform foreign s.world := ⟨views, heap, inViews⟩
  have created : ∀ {capacity initialChunkSize maxChunkSize : Nat} {growable : Bool}
      {result : World × PtrResult}, ArenaCreateOutcome platform s.world views foreign capacity
        initialChunkSize maxChunkSize growable result → a.Shown platform foreign result.1 := by
    intro capacity initialChunkSize maxChunkSize growable result outcome
    cases outcome with
    | refused => exact shown
    | created after _ _ _ => exact ⟨_, after, List.mem_cons_of_mem _ inViews⟩
  obtain ⟨call, outcome⟩ := event
  cases call with
  | create capacity answer =>
      obtain ⟨allowed, performed⟩ := step
      cases performed
      exact shown.stays (created (arenaMakeFirst_outcome core heap false answer allowed
        ⟨allowed, allowed⟩)) (by rintro _ _ ⟨⟩) (by rintro ⟨⟩)
  | createGrowable initialChunkSize maxChunkSize answer =>
      obtain ⟨allowed, performed⟩ := step
      cases performed
      exact shown.stays (created (arenaCreateGrowable_outcome core heap answer allowed))
        (by rintro _ _ ⟨⟩) (by rintro ⟨⟩)
  | allocate other size alignment answer =>
      obtain ⟨⟨⟨g, live, rfl⟩, sizeWord, alignmentWord⟩, performed⟩ := step
      obtain ⟨c, rest, rfl, split, first, _⟩ := ArenaInv.split heap perm live
      obtain ⟨b, after, address, answers, _⟩ :=
        first.allocate_answers core sizeWord alignmentWord answer rfl
      cases performed
      exact shown.asked heap inViews split (.allocate c.address size alignment answer) after
        address answers
  | copyString other source answer =>
      obtain ⟨⟨g, live, rfl⟩, performed⟩ := step
      obtain ⟨c, rest, rfl, split, first, _⟩ := ArenaInv.split heap perm live
      obtain ⟨b, after, address, answers⟩ := first.copyString_answers core source answer rfl
      cases performed
      exact shown.asked heap inViews split (.copyString c.address source answer) after address
        answers
  | reset other =>
      obtain ⟨c, rest, rfl, split, after⟩ := heap.follow_reset perm step (Or.inl rfl)
      exact shown.cleared heap inViews split (.reset c.address) after
  | resetSecure other =>
      obtain ⟨c, rest, rfl, split, after⟩ := heap.follow_reset perm step (Or.inr rfl)
      exact shown.cleared heap inViews split (.resetSecure c.address) after
  | releasePages other =>
      obtain ⟨⟨g, live, rfl⟩, performed⟩ := step
      obtain ⟨c, rest, rfl, split, first, _⟩ := ArenaInv.split heap perm live
      obtain ⟨w, returns, rfl⟩ := ArenaState.perform_releasePages performed
      obtain rfl := Option.some.inj (returns.symm.trans (arenaReleasePages_outcome first))
      exact shown.stays shown (by rintro _ _ ⟨⟩) (by rintro ⟨⟩)
  | destroy other =>
      obtain ⟨⟨g, live, rfl⟩, performed⟩ := step
      obtain ⟨c, rest, rfl, split, first, _⟩ := ArenaInv.split heap perm live
      obtain ⟨w', destroyed, after, _⟩ := arenaDestroy_outcome first
      obtain ⟨w, returns, rfl⟩ := ArenaState.perform_destroy performed
      obtain rfl := Option.some.inj (returns.symm.trans destroyed)
      rcases List.mem_cons.mp (split.mem_iff.mp inViews) with rfl | inRest
      · exact absurd rfl spared
      · exact shown.stays ⟨rest, after, inRest⟩ (by rintro _ _ ⟨⟩) (by rintro ⟨⟩)
  | write address bytes =>
      obtain ⟨allowed, performed⟩ := step
      cases performed
      exact shown.stays ⟨_, (moved_write core heap perm allowed).heap, inViews⟩
        (by rintro _ _ ⟨⟩) (by rintro ⟨⟩)

/-! ## Every run -/

/-- Correct clients that do not destroy one arena. -/
def sparingSystem (core : BcCore) (platform : Platform) (foreign : List Extent) (arena : Nat) :
    System ArenaState ArenaEvent :=
  (arenaSystem core platform foreign).restrict fun _ event _ => event.call ≠ .destroy arena

/-- The call creates an arena that may grow. -/
def ArenaCall.growable : ArenaCall → Bool
  | .createGrowable _ _ _ => true
  | _ => false

/-- A new bump allocator. -/
structure BumpArena.Fresh (capacity arena : Nat) (growable : Bool) (b : BumpArena) : Prop where
  current : b.current = b.first
  unused : b.used = 0
  start : b.first.start = arena + arenaHeaderAligned + chunkHeaderAligned
  enough : capacity ≤ b.first.capacity
  growable : b.growable = growable

theorem ArenaView.fresh_bump {capacity mmapSize : Nat}
    (block initialChunkSize maxChunkSize : Nat) (growable : Bool)
    (room : arenaHeaderAligned + chunkHeaderAligned + capacity ≤ mmapSize) :
    (ArenaView.fresh block mmapSize initialChunkSize maxChunkSize growable).bump.Fresh capacity
      block growable where
  current := rfl
  unused := rfl
  start := rfl
  enough := Nat.le_sub_of_add_le ((Nat.add_comm _ _).trans_le room)
  growable := rfl

/-- **A creation makes a new bump allocator.** -/
theorem ArenaInv.fresh_bump (inv : ArenaInv platform foreign s) {event : ArenaEvent}
    {capacity : Nat} (step : (arenaSystem core platform foreign).Next s event s')
    (creates : event.call.Creates capacity) (created : event.result = ⟨true, arena⟩) :
    (arenaBump s'.world.mem arena).Fresh capacity arena event.call.growable := by
  obtain ⟨views, heap, perm⟩ := inv
  obtain ⟨call, outcome⟩ := event
  obtain ⟨allowed, performed⟩ := step
  obtain rfl : outcome = ⟨true, arena⟩ := created
  have fresh : ∀ {initialChunkSize maxChunkSize : Nat} {growable : Bool}
      {result : World × PtrResult}, ArenaCreateOutcome platform s.world views foreign capacity
        initialChunkSize maxChunkSize growable result →
      s.created result = (s', ⟨true, arena⟩) →
      (arenaBump s'.world.mem arena).Fresh capacity arena growable := by
    intro initialChunkSize maxChunkSize growable result outcome same
    cases outcome with
    | refused => cases congrArg (fun r => r.2.ok) same
    | @created w' block mmapSize after _ _ room =>
        obtain rfl := congrArg (fun r => r.2.out) same
        obtain rfl := congrArg Prod.fst same
        have shown : (ArenaView.fresh block mmapSize initialChunkSize maxChunkSize growable).Shown
            platform foreign w' := ⟨_, after, List.mem_cons_self⟩
        have fresh := ArenaView.fresh_bump block initialChunkSize maxChunkSize growable room
        rw [← shown.bump] at fresh
        exact fresh
  cases creates with
  | create answer =>
      exact fresh (arenaMakeFirst_outcome core heap false answer allowed ⟨allowed, allowed⟩)
        (Option.some.inj performed)
  | createGrowable maxChunkSize answer =>
      exact fresh (arenaCreateGrowable_outcome core heap answer allowed)
        (Option.some.inj performed)

/-- **An arena is a bump allocator.** From its creation until it is destroyed, and
whatever is done to other arenas in between, an arena answers every request as the bump
allocator does that its headers hold: at the first aligned address behind the bytes
used since the last reset, whenever the request fits there. -/
theorem arena_refines_bump (core : BcCore) (platform : Platform) (foreign : List Extent)
    {s s' : ArenaState} (reachable : (arenaSystem core platform foreign).Reachable s)
    {event : ArenaEvent} {capacity arena : Nat} (creates : event.call.Creates capacity)
    (created : event.result = ⟨true, arena⟩)
    (step : (arenaSystem core platform foreign).Next s event s') :
    ∃ b : BumpArena, b.Fresh capacity arena event.call.growable ∧
      ∀ events t, (sparingSystem core platform foreign arena).Run s' events t →
        ((sparingSystem core platform foreign arena).observe (BumpStep core arena)).Run (s', b)
          events (t, arenaBump t.world.mem arena) := by
  have inv := ArenaInv.reachable reachable
  have live : s'.Live arena := (inv.created step creates created).1
  refine ⟨_, inv.fresh_bump step creates created, fun events t run => ?_⟩
  have keeps : ∀ {t t' : ArenaState} {event : ArenaEvent},
      ArenaInv platform foreign t ∧ t.Live arena →
      (sparingSystem core platform foreign arena).Next t event t' →
      BumpStep core arena t event (arenaBump t.world.mem arena) (arenaBump t'.world.mem arena) ∧
        ArenaInv platform foreign t' ∧ t'.Live arena := by
    rintro t t' event ⟨inv, live⟩ ⟨next, spared⟩
    exact ⟨inv.bump_step next live spared, inv.step next, live.step next spared⟩
  have followed := run.observe keeps ⟨inv.step step, live⟩
  exact followed.1

/-- The arena of 100 bytes runs beside a bump allocator. -/
theorem arena_refines_bump_oneArena :
    ∃ b : BumpArena, b.Fresh 100 131072 true ∧
      ∀ events t, (sparingSystem BcCore.reference Platform.x86 [] 131072).Run oneArena events t →
        ((sparingSystem BcCore.reference Platform.x86 [] 131072).observe
          (BumpStep BcCore.reference 131072)).Run (oneArena, b) events
          (t, arenaBump t.world.mem 131072) :=
  arena_refines_bump BcCore.reference Platform.x86 [] (.start smallContext_start)
    (.createGrowable 0 (some 131072)) (by decide)
    (show (arenaSystem BcCore.reference Platform.x86 []).Next smallContext
        ⟨.createGrowable 100 0 (some 131072), (smallContext.created
          (arenaCreateGrowable BcCore.reference Platform.x86 smallContext.world 100 0
            (some 131072))).2⟩ oneArena from
      ⟨show (100 : Nat) < 2 ^ 64 ∧ (0 : Nat) < 2 ^ 64 by decide, rfl⟩)

/-- After 24 bytes at an alignment of 16. -/
example : arenaBump oneAllocation.world.mem 131072 =
    (arenaBump oneArena.world.mem 131072).take 24 16 := by
  decide +kernel

end BcAllocators
