import BcAllocators.Arena.Client

/-!
# The course of one arena

A call changes one arena at most. An arena that is not destroyed is afterwards what
it was, has served a request from its last chunk or from a new one behind it, has
linked a new chunk in vain, or is back at its first chunk (`ArenaView.Changed`). A new
chunk has the size that follows from the last chunk, the limit of the arena and what
the request needs (`ArenaView.grownSize`).

`ArenaInv.follow` says this for every call and for any arena of a context;
`ArenaInv.follow_request` says more about the arena that a request goes to. The first
chunk and its capacity are there for the life of the arena (`ArenaView.Changed.first`).
-/

set_option autoImplicit false

namespace BcAllocators

open Machine

variable {core : BcCore} {platform : Platform} {foreign : List Extent} {s s' : ArenaState}
variable {w w' : World} {a b : ArenaView} {views rest : List ArenaView}
variable {arena need size alignment : Nat} {answer : Option Nat}

/-! ## Changes of an arena -/

/-- The size of the block of a new chunk: the target behind a header, in whole pages. -/
def ArenaView.grownSize (platform : Platform) (a : ArenaView) (need : Nat) : Nat :=
  roundUp (chunkHeaderAligned + targetCapacity a.last.capacity a.maxChunkSize need)
    platform.pageSize

/-- What a request that needs some bytes does to its arena. -/
inductive ArenaView.Requested (platform : Platform) (need : Nat) (a : ArenaView) :
    ArenaView → Prop where
  | kept : Requested platform need a a
  | served (x : Alloc) : Requested platform need a (a.serve x)
  | wasted (block : Nat) : Requested platform need a (a.extend block (a.grownSize platform need))
  | grown (block : Nat) (x : Alloc) :
      Requested platform need a ((a.extend block (a.grownSize platform need)).serve x)

/-- What a call does to an arena that it does not destroy. -/
inductive ArenaView.Changed (platform : Platform) (a : ArenaView) : ArenaView → Prop where
  | requested {need : Nat} {b : ArenaView} (word : need < 2 ^ 64)
      (requested : a.Requested platform need b) : Changed platform a b
  | reset : Changed platform a a.reset

/-- The arena is one of a context. -/
def ArenaView.Shown (platform : Platform) (foreign : List Extent) (w : World)
    (a : ArenaView) : Prop :=
  ∃ views, ArenaHeap platform w views foreign ∧ a ∈ views

theorem ArenaView.Changed.stay (a : ArenaView) : a.Changed platform a :=
  .requested (show 0 < 2 ^ 64 by decide) .kept

/-- The first chunk of an arena stays where it is, and as large as it is. -/
theorem ArenaView.serve_first_eq (a : ArenaView) (x : Alloc) :
    (a.serve x).first.header = a.first.header ∧
      (a.serve x).first.capacity = a.first.capacity := by
  cases front : a.front with
  | nil => simp [ArenaView.serve, ArenaView.first, front, Chunk.header, Chunk.capacity]
  | cons c rest => simp [ArenaView.serve, ArenaView.first, front, Chunk.header, Chunk.capacity]

/-- **The first chunk is there for the life of the arena**, and so are the address and
the limit. -/
theorem ArenaView.Changed.first (changed : a.Changed platform b) :
    b.address = a.address ∧ b.first.capacity = a.first.capacity ∧
      b.maxChunkSize = a.maxChunkSize := by
  cases changed with
  | requested _ requested =>
      cases requested with
      | kept => exact ⟨rfl, rfl, rfl⟩
      | served x => exact ⟨(a.serve_first x).1, (a.serve_first_eq x).2, rfl⟩
      | wasted block =>
          refine ⟨a.extend_address _ _, ?_, rfl⟩
          rw [a.extend_first]
      | grown block x =>
          refine ⟨(ArenaView.serve_first _ x).1.trans (a.extend_address _ _), ?_, rfl⟩
          rw [(ArenaView.serve_first_eq _ x).2, a.extend_first]
  | reset => exact ⟨rfl, rfl, rfl⟩

/-! ## The ends of a request -/

/-- How `bc_allocators_arena_allocate` ends. -/
inductive AllocateEnds (core : BcCore) (platform : Platform) (w : World)
    (arena size alignment : Nat) (answer : Option Nat) : World × PtrResult → Prop where
  | refused : AllocateEnds core platform w arena size alignment answer (w, .failed)
  | served {m : Memory} {ptr : Nat} (sizePos : 0 < size) (power : alignment.isPowerOfTwo)
      (tried : tryAllocInChunk core w.mem (arenaCurrentChunk w.mem arena) size alignment =
        (m, some ptr)) :
      AllocateEnds core platform w arena size alignment answer
        ({ w with mem := countAllocation m arena }, ⟨true, ptr⟩)
  | grown {w₁ : World} {m : Memory} {ptr : Nat} (sizePos : 0 < size)
      (power : alignment.isPowerOfTwo)
      (grew : arenaGrow core platform w arena (wadd size alignment) answer = (w₁, true))
      (tried : tryAllocInChunk core w₁.mem (arenaCurrentChunk w₁.mem arena) size alignment =
        (m, some ptr)) :
      AllocateEnds core platform w arena size alignment answer
        ({ w₁ with mem := countAllocation m arena }, ⟨true, ptr⟩)
  | wasted {w₁ : World}
      (grew : arenaGrow core platform w arena (wadd size alignment) answer = (w₁, true)) :
      AllocateEnds core platform w arena size alignment answer (w₁, .failed)

theorem arenaAllocate_ends (core : BcCore) (platform : Platform) (w : World)
    (arena size alignment : Nat) (answer : Option Nat) :
    AllocateEnds core platform w arena size alignment answer
      (arenaAllocate core platform w arena size alignment answer) := by
  simp only [arenaAllocate]
  by_cases zero : size = 0 ∨ alignment = 0
  · rw [if_pos zero]
    exact .refused
  rw [if_neg zero]
  by_cases odd : alignment &&& (alignment - 1) ≠ 0
  · rw [if_pos odd]
    exact .refused
  rw [if_neg odd]
  obtain ⟨some, pos⟩ := not_or.mp zero
  have power := alignment_test.mp ⟨pos, odd⟩
  have sizePos := Nat.pos_of_ne_zero some
  split
  · next tried => exact .served sizePos power tried
  · by_cases fixed : arenaGrowable w.mem arena = false
    · rw [if_pos fixed]
      exact .refused
    rw [if_neg fixed]
    split
    · next refused =>
        -- a growth that fails leaves the world as it is
        simp only [arenaGrow] at refused
        split at refused
        · cases refused
          exact .refused
        · split at refused
          · cases refused
            exact .refused
          · cases refused
    · next grew =>
        split
        · next tried => exact .grown sizePos power grew tried
        · exact .wasted grew

/-- **A growth links a chunk of the grown size.** -/
theorem ArenaHeap.grows (core : BcCore) (heap : ArenaHeap platform w (a :: rest) foreign)
    {w₁ : World} (word : need < 2 ^ 64)
    (grew : arenaGrow core platform w a.address need answer = (w₁, true)) :
    ∃ block, ArenaHeap platform w₁ (a.extend block (a.grownSize platform need) :: rest)
      foreign := by
  have here := heap.here a List.mem_cons_self
  have current : arenaCurrentChunk w.mem a.address = a.last.header :=
    ArenaView.currentChunk_of_header here.header
  have limit : arenaMaxChunkSize w.mem a.address = a.maxChunkSize :=
    ArenaView.maxChunkSize_of_header here.header
  cases sized : growMmapSize core w a.address need with
  | none =>
      simp only [arenaGrow, sized] at grew
      cases grew
  | some mmapSize =>
      cases mapped : mapBlock platform w mmapSize answer with
      | none =>
          simp only [arenaGrow, sized, mapped] at grew
          cases grew
      | some got =>
          obtain ⟨w', block⟩ := got
          obtain ⟨w'', again, after, _, _⟩ := heap.grow core word sized mapped
          obtain rfl : w'' = w₁ := congrArg Prod.fst (again.symm.trans grew)
          obtain ⟨rfl, _⟩ := (growMmapSize_eq_some_iff core heap.pageSize word).mp sized
          rw [current, limit, (here.chunks a.last a.last_mem).capacity] at after
          exact ⟨block, after⟩

/-- **What a request does to its arena.** An allocation that it returns is one of the
arena. -/
theorem arenaAllocate_requested (core : BcCore) (heap : ArenaHeap platform w (a :: rest) foreign)
    (sizeWord : size < 2 ^ 64) (alignmentWord : alignment < 2 ^ 64) (answer : Option Nat)
    {result : World × PtrResult}
    (allocated : arenaAllocate core platform w a.address size alignment answer = result) :
    ∃ b, a.Requested platform (wadd size alignment) b ∧
      ArenaHeap platform result.1 (b :: rest) foreign ∧
      (result.2.ok = true → ∃ x ∈ b.allocs, x.extent = ⟨result.2.out, size⟩) := by
  have ends := arenaAllocate_ends core platform w a.address size alignment answer
  rw [allocated] at ends
  cases ends with
  | refused => exact ⟨a, .kept, heap, by rintro ⟨⟩⟩
  | served sizePos power tried =>
      rcases heap.allocate_last core sizePos sizeWord alignmentWord power with
        ⟨_, m, served, after, _⟩ | ⟨_, full⟩
      · obtain ⟨rfl, ⟨rfl⟩⟩ := Prod.mk.inj (served.symm.trans tried)
        exact ⟨_, .served _, after, fun _ => ⟨_, List.mem_cons_self, rfl⟩⟩
      · rw [full] at tried
        cases tried
  | grown sizePos power grew tried =>
      obtain ⟨block, grown⟩ := heap.grows core (wadd_lt size alignment) grew
      have address := a.extend_address block (a.grownSize platform (wadd size alignment))
      rcases grown.allocate_last core sizePos sizeWord alignmentWord power with
        ⟨_, m, served, after, _⟩ | ⟨_, full⟩
      · rw [address] at served after
        obtain ⟨rfl, ⟨rfl⟩⟩ := Prod.mk.inj (served.symm.trans tried)
        exact ⟨_, .grown block _, after, fun _ => ⟨_, List.mem_cons_self, rfl⟩⟩
      · rw [address, tried] at full
        cases full
  | wasted grew =>
      obtain ⟨block, grown⟩ := heap.grows core (wadd_lt size alignment) grew
      exact ⟨_, .wasted block, grown, by rintro ⟨⟩⟩

/-- A copied string is a request for its bytes and the terminator. -/
theorem arenaCopyString_requested (core : BcCore)
    (heap : ArenaHeap platform w (a :: rest) foreign) (source : Nat) (answer : Option Nat) :
    ∃ b, a.Requested platform (wadd (wadd (core.length w.mem source) 1) 1) b ∧
      ArenaHeap platform (arenaCopyString core platform w a.address source answer).1 (b :: rest)
        foreign := by
  have sizeWord := wadd_lt (core.length w.mem source) 1
  simp only [arenaCopyString]
  generalize wadd (core.length w.mem source) 1 = size at sizeWord ⊢
  generalize allocated : arenaAllocate core platform w a.address size 1 answer = result
  obtain ⟨b, requested, after, held⟩ :=
    arenaAllocate_requested core heap sizeWord (by decide) answer allocated
  refine ⟨b, requested, ?_⟩
  obtain ⟨w', ok, out⟩ := result
  cases ok with
  | false => exact after
  | true =>
      obtain ⟨x, member, extent⟩ := held rfl
      refine after.payload ((core.copy_frame w'.mem out source size).mono ?_)
      have used := (after.sound b List.mem_cons_self).mem_usedPayloads member
      rwa [extent] at used

/-! ## An arena in memory -/

/-- The capacities of the chunks of an arena, oldest first. -/
def chunkCapacities (m : Memory) (arena : Nat) : List Nat :=
  (arenaChain m arena).map (chunkCapacity m)

namespace ArenaView.Shown

variable (shown : a.Shown platform foreign w)

include shown

theorem here : a.At w.mem w.ctx.address := by
  obtain ⟨views, heap, inViews⟩ := shown
  exact heap.here a inViews

theorem limit : arenaMaxChunkSize w.mem a.address = a.maxChunkSize :=
  maxChunkSize_of_header shown.here.header

theorem currentChunk : arenaCurrentChunk w.mem a.address = a.last.header :=
  currentChunk_of_header shown.here.header

theorem firstCapacity :
    chunkCapacity w.mem (arenaFirstChunk w.mem a.address) = a.first.capacity := by
  have first : arenaFirstChunk w.mem a.address = a.first.header :=
    firstChunk_of_header shown.here.header
  rw [first]
  exact (shown.here.chunks a.first a.first_mem).capacity

theorem currentCapacity :
    chunkCapacity w.mem (arenaCurrentChunk w.mem a.address) = a.last.capacity := by
  rw [shown.currentChunk]
  exact (shown.here.chunks a.last a.last_mem).capacity

/-- The capacities in memory are those of the view. -/
theorem capacities : chunkCapacities w.mem a.address = a.chunks.map Chunk.capacity := by
  have here := shown.here
  obtain ⟨views, heap, inViews⟩ := shown
  rw [chunkCapacities, heap.arenaChain_eq inViews, List.map_map]
  exact List.map_congr_left fun c member => (here.chunks c member).capacity

end ArenaView.Shown

/-! ## Following an arena -/

/-- The call asks an arena for bytes. -/
inductive ArenaCall.Asks (core : BcCore) (s : ArenaState) : ArenaCall → Nat → Nat → Nat → Prop where
  | allocate (arena size alignment : Nat) (answer : Option Nat) :
      Asks core s (.allocate arena size alignment answer) arena size alignment
  | copyString (arena source : Nat) (answer : Option Nat) :
      Asks core s (.copyString arena source answer) arena
        (wadd (core.length s.world.mem source) 1) 1

/-- A live arena is one of the context. -/
theorem ArenaInv.shown (inv : ArenaInv platform foreign s) (live : s.Live arena) :
    ∃ a : ArenaView, a.address = arena ∧ a.Shown platform foreign s.world := by
  obtain ⟨views, heap, perm⟩ := inv
  obtain ⟨h, member, rfl⟩ := live
  obtain ⟨a, inViews, rfl⟩ := List.mem_map.mp (perm.mem_iff.mp member)
  exact ⟨a, rfl, views, heap, inViews⟩

section follow

variable (heap : ArenaHeap platform s.world views foreign)
  (perm : s.arenas.Perm (views.map ArenaView.client)) {event : ArenaEvent}
  (step : (arenaSystem core platform foreign).Next s event s')

include heap perm step

/-- **The arena that a request goes to**, and the others. -/
theorem ArenaHeap.follow_request (asks : event.call.Asks core s arena size alignment) :
    ∃ a b rest, a.address = arena ∧ views.Perm (a :: rest) ∧
      a.Requested platform (wadd size alignment) b ∧
      ArenaHeap platform s'.world (b :: rest) foreign := by
  obtain ⟨call, outcome⟩ := event
  obtain ⟨allowed, performed⟩ := step
  cases asks with
  | allocate arena size alignment answer =>
      obtain ⟨⟨h, member, rfl⟩, sizeWord, alignmentWord⟩ := allowed
      obtain ⟨a, rest, rfl, split, first, _⟩ := ArenaInv.split heap perm member
      obtain ⟨b, requested, after, _⟩ :=
        arenaAllocate_requested core first sizeWord alignmentWord answer rfl
      cases performed
      exact ⟨a, b, rest, rfl, split, requested, after⟩
  | copyString arena source answer =>
      obtain ⟨h, member, rfl⟩ := allowed
      obtain ⟨a, rest, rfl, split, first, _⟩ := ArenaInv.split heap perm member
      obtain ⟨b, requested, after⟩ := arenaCopyString_requested core first source answer
      cases performed
      exact ⟨a, b, rest, rfl, split, requested, after⟩

/-- A reset arena, and the others. -/
theorem ArenaHeap.follow_reset (resets : event.call = .reset arena ∨
      event.call = .resetSecure arena) :
    ∃ a rest, a.address = arena ∧ views.Perm (a :: rest) ∧
      ArenaHeap platform s'.world (a.reset :: rest) foreign := by
  obtain ⟨call, outcome⟩ := event
  obtain ⟨allowed, performed⟩ := step
  rcases resets with rfl | rfl
  · obtain ⟨h, member, rfl⟩ := allowed
    obtain ⟨a, rest, rfl, split, first, _⟩ := ArenaInv.split heap perm member
    obtain ⟨w', reset, after, _⟩ := arenaReset_outcome first
    obtain ⟨w, returns, rfl⟩ := ArenaState.perform_reset performed
    obtain rfl := Option.some.inj (returns.symm.trans reset)
    exact ⟨a, rest, rfl, split, after⟩
  · obtain ⟨h, member, rfl⟩ := allowed
    obtain ⟨a, rest, rfl, split, first, _⟩ := ArenaInv.split heap perm member
    obtain ⟨w', reset, after, _⟩ := arenaResetSecure_outcome core first
    obtain ⟨w, returns, rfl⟩ := ArenaState.perform_resetSecure performed
    obtain rfl := Option.some.inj (returns.symm.trans reset)
    exact ⟨a, rest, rfl, split, after⟩

end follow

/-- An arena that is first among some is itself, and another one is among the rest. -/
theorem shown_of_split {b : ArenaView} (split : views.Perm (a :: rest)) (inViews : b ∈ views)
    {c : ArenaView} (after : ArenaHeap platform w (c :: rest) foreign)
    (changed : a.Changed platform c) :
    ∃ d, b.Changed platform d ∧ d.Shown platform foreign w := by
  rcases List.mem_cons.mp (split.mem_iff.mp inViews) with rfl | inRest
  · exact ⟨c, changed, _, after, List.mem_cons_self⟩
  · exact ⟨b, .stay b, _, after, List.mem_cons_of_mem c inRest⟩

/-- **A call changes a live arena that it does not destroy as said.** -/
theorem ArenaInv.follow (inv : ArenaInv platform foreign s) {event : ArenaEvent}
    (step : (arenaSystem core platform foreign).Next s event s') (live : s.Live arena)
    (spared : event.call ≠ .destroy arena) :
    ∃ a b : ArenaView, a.address = arena ∧ a.Shown platform foreign s.world ∧
      a.Changed platform b ∧ b.Shown platform foreign s'.world := by
  obtain ⟨views, heap, perm⟩ := inv
  obtain ⟨h, member, rfl⟩ := live
  obtain ⟨a, inViews, rfl⟩ := List.mem_map.mp (perm.mem_iff.mp member)
  suffices ∃ b, a.Changed platform b ∧ b.Shown platform foreign s'.world by
    obtain ⟨b, changed, shown⟩ := this
    exact ⟨a, b, rfl, ⟨views, heap, inViews⟩, changed, shown⟩
  have same : ∀ {w : World}, ArenaHeap platform w views foreign →
      ∃ b, a.Changed platform b ∧ b.Shown platform foreign w :=
    fun after => ⟨a, .stay a, views, after, inViews⟩
  have created : ∀ {capacity initialChunkSize maxChunkSize : Nat} {growable : Bool}
      {result : World × PtrResult}, ArenaCreateOutcome platform s.world views foreign capacity
        initialChunkSize maxChunkSize growable result →
      ∃ b, a.Changed platform b ∧ b.Shown platform foreign result.1 := by
    intro capacity initialChunkSize maxChunkSize growable result outcome
    cases outcome with
    | refused => exact same heap
    | created after _ _ _ => exact ⟨a, .stay a, _, after, List.mem_cons_of_mem _ inViews⟩
  obtain ⟨call, outcome⟩ := event
  have asked : ∀ {size alignment : Nat} {other : Nat},
      call.Asks core s other size alignment →
      ∃ b, a.Changed platform b ∧ b.Shown platform foreign s'.world := by
    intro size alignment other asks
    obtain ⟨c, d, rest, _, split, requested, after⟩ := heap.follow_request perm step asks
    exact shown_of_split split inViews after (.requested (wadd_lt _ _) requested)
  have cleared : ∀ {other : Nat}, call = .reset other ∨ call = .resetSecure other →
      ∃ b, a.Changed platform b ∧ b.Shown platform foreign s'.world := by
    intro other resets
    obtain ⟨c, rest, _, split, after⟩ := heap.follow_reset perm step resets
    exact shown_of_split split inViews after .reset
  obtain ⟨allowed, performed⟩ := step
  cases call with
  | create capacity answer =>
      cases performed
      exact created (arenaMakeFirst_outcome core heap false answer allowed ⟨allowed, allowed⟩)
  | createGrowable initialChunkSize maxChunkSize answer =>
      cases performed
      exact created (arenaCreateGrowable_outcome core heap answer allowed)
  | allocate other size alignment answer => exact asked (.allocate other size alignment answer)
  | copyString other source answer => exact asked (.copyString other source answer)
  | reset other => exact cleared (Or.inl rfl)
  | resetSecure other => exact cleared (Or.inr rfl)
  | releasePages other =>
      obtain ⟨g, live, rfl⟩ := allowed
      obtain ⟨c, rest, rfl, split, first, _⟩ := ArenaInv.split heap perm live
      obtain ⟨w, returns, rfl⟩ := ArenaState.perform_releasePages performed
      obtain rfl := Option.some.inj (returns.symm.trans (arenaReleasePages_outcome first))
      exact same heap
  | destroy other =>
      obtain ⟨g, live, rfl⟩ := allowed
      obtain ⟨c, rest, rfl, split, first, _⟩ := ArenaInv.split heap perm live
      obtain ⟨w', destroyed, after, _⟩ := arenaDestroy_outcome first
      obtain ⟨w, returns, rfl⟩ := ArenaState.perform_destroy performed
      obtain rfl := Option.some.inj (returns.symm.trans destroyed)
      rcases List.mem_cons.mp (split.mem_iff.mp inViews) with rfl | inRest
      · exact absurd rfl spared
      · exact ⟨a, .stay a, rest, after, inRest⟩
  | write address bytes =>
      cases performed
      exact same (moved_write core heap perm allowed).heap

/-- An arena that is not destroyed stays live. -/
theorem ArenaState.Live.step {event : ArenaEvent}
    (step : (arenaSystem core platform foreign).Next s event s') (live : s.Live arena)
    (spared : event.call ≠ .destroy arena) : s'.Live arena := by
  obtain ⟨h, member, rfl⟩ := live
  have changed : ∀ (other : Nat) (change : List Alloc → List Alloc),
      ∃ g ∈ changeArena s.arenas other change, g.address = h.address := by
    intro other change
    refine ⟨_, List.mem_map_of_mem member, ?_⟩
    split_ifs <;> rfl
  have created : ∀ result : World × PtrResult, (s.created result).1.Live h.address := by
    intro result
    refine ⟨h, ?_, rfl⟩
    simp only [ArenaState.created, ArenaState.after]
    split_ifs
    · exact List.mem_cons_of_mem _ member
    · exact member
  have allocated : ∀ (other size alignment : Nat) (result : World × PtrResult),
      (s.allocated other size alignment result).1.Live h.address := by
    intro other size alignment result
    simp only [ArenaState.Live, ArenaState.allocated, ArenaState.after]
    split_ifs
    · exact changed other _
    · exact ⟨h, member, rfl⟩
  obtain ⟨call, outcome⟩ := event
  obtain ⟨_, performed⟩ := step
  cases call with
  | create _ _ =>
      cases performed
      exact created _
  | createGrowable _ _ _ =>
      cases performed
      exact created _
  | allocate _ _ _ _ =>
      cases performed
      exact allocated _ _ _ _
  | copyString _ _ _ =>
      cases performed
      exact allocated _ _ _ _
  | reset other =>
      obtain ⟨w, _, rfl⟩ := ArenaState.perform_reset performed
      exact changed other fun _ => []
  | resetSecure other =>
      obtain ⟨w, _, rfl⟩ := ArenaState.perform_resetSecure performed
      exact changed other fun _ => []
  | releasePages _ =>
      obtain ⟨w, _, rfl⟩ := ArenaState.perform_releasePages performed
      exact ⟨h, member, rfl⟩
  | destroy other =>
      obtain ⟨w, _, rfl⟩ := ArenaState.perform_destroy performed
      have different : h.address ≠ other := by
        rintro rfl
        exact spared rfl
      have kept : h ∈ dropArena s.arenas other :=
        List.mem_filter.mpr ⟨member, decide_eq_true different⟩
      exact ⟨h, kept, rfl⟩
  | write _ _ =>
      cases performed
      exact ⟨h, member, rfl⟩

end BcAllocators
