import BcAllocators.Arena.Capacities

/-!
# How arenas grow

A new chunk has the capacity that its request needs. Beyond that it doubles the last
chunk, up to the limit of the arena; the rest is rounding to pages
(`targetCapacity_policy`). Without a limit the capacities of a chain therefore at least
double from chunk to chunk, and a chain of `k` added chunks ends in one of at least
`2 ^ k` times the first (`arena_growth_policy`).

The doubled capacity is a word as long as the blocks of the arena are smaller than
`2 ^ 63` bytes.
-/

set_option autoImplicit false

namespace BcAllocators

open Machine

variable {core : BcCore} {platform : Platform} {foreign : List Extent} {s s' : ArenaState}
variable {w w' : World} {a b : ArenaView} {views views' : List ArenaView}
variable {arena need size alignment : Nat}

/-! ## One chunk -/

/-- What holds of a new capacity, behind a chunk of the last one, for a request that
needs some bytes. -/
structure GrowthPolicy (platform : Platform) (maxChunkSize last need new : Nat) : Prop where
  serves : need ≤ new
  doubles : maxChunkSize = 0 → 2 * last ≤ new
  reaches : 0 < maxChunkSize → min (2 * last) maxChunkSize ≤ new
  capped : 0 < maxChunkSize → new < max maxChunkSize need + platform.pageSize

/-- The target, when the doubling does not wrap. -/
theorem targetCapacity_eq {last : Nat} (half : last < 2 ^ 63) (maxChunkSize need : Nat) :
    targetCapacity last maxChunkSize need =
      if maxChunkSize = 0 then max (2 * last) need
      else max (min (max (2 * last) need) maxChunkSize) need := by
  simp only [targetCapacity, wmul_of_lt (show last * 2 < 2 ^ 64 by omega)]
  split_ifs <;> omega

/-- **The growth policy**, from the doubling to the rounding. -/
theorem targetCapacity_policy (platform : Platform) {last : Nat} (half : last < 2 ^ 63)
    (maxChunkSize need : Nat) :
    GrowthPolicy platform maxChunkSize last need
      (roundUp (chunkHeaderAligned + targetCapacity last maxChunkSize need) platform.pageSize -
        chunkHeaderAligned) := by
  have pos := platform.pageSize_pos
  have target := targetCapacity_eq half maxChunkSize need
  generalize targetCapacity last maxChunkSize need = capacity at target ⊢
  have above : chunkHeaderAligned + capacity ≤
      roundUp (chunkHeaderAligned + capacity) platform.pageSize := le_roundUp pos
  have below : roundUp (chunkHeaderAligned + capacity) platform.pageSize <
      chunkHeaderAligned + capacity + platform.pageSize := roundUp_lt pos
  by_cases unlimited : maxChunkSize = 0
  · rw [if_pos unlimited] at target
    constructor <;> omega
  · rw [if_neg unlimited] at target
    constructor <;> omega

/-- The capacity of a chunk that was linked behind the last one of an arena. -/
theorem ArenaView.extend_policy (half : a.last.capacity < 2 ^ 63) (block need : Nat) :
    GrowthPolicy platform a.maxChunkSize a.last.capacity need
      (a.extend block (a.grownSize platform need)).last.capacity := by
  have policy := targetCapacity_policy platform half a.maxChunkSize need
  have capacity : (a.extend block (a.grownSize platform need)).last.capacity =
      a.grownSize platform need - (0 + chunkHeaderAligned) := rfl
  rwa [capacity, Nat.zero_add]

/-! ## Chains of chunks -/

/-- The blocks of an arena are smaller than half the address space. -/
def SmallBlocks (m : Memory) (arena : Nat) : Prop :=
  ∀ c ∈ arenaChain m arena, chunkMmapSize m c < 2 ^ 63

/-- Each number is at least twice the one before. -/
def Doubling (capacities : List Nat) : Prop := capacities.IsChain fun c d => 2 * c ≤ d

/-- Numbers that double end in a power of two times the first. -/
theorem Doubling.le_getLast {first : Nat} {rest : List Nat} (doubling : Doubling (first :: rest)) :
    ∀ last ∈ (first :: rest).getLast?, 2 ^ rest.length * first ≤ last := by
  induction rest generalizing first with
  | nil =>
      intro last ends
      obtain rfl := Option.some.inj (List.getLast?_singleton.symm.trans ends)
      rw [List.length_nil, Nat.pow_zero, Nat.one_mul]
  | cons second rest ih =>
      obtain ⟨twice, others⟩ := List.isChain_cons_cons.mp doubling
      intro last ends
      rw [List.getLast?_cons_cons] at ends
      calc 2 ^ (rest.length + 1) * first = 2 ^ rest.length * (2 * first) := by ring
        _ ≤ 2 ^ rest.length * second := Nat.mul_le_mul_left _ twice
        _ ≤ last := ih others last ends

/-- The capacities of an arena without a limit double, when its blocks are small. -/
def ArenaView.Doubles (a : ArenaView) : Prop :=
  a.maxChunkSize = 0 → (∀ c ∈ a.chunks, c.mmapSize < 2 ^ 63) →
    Doubling (a.chunks.map Chunk.capacity)

theorem Chunk.capacity_lt {c : Chunk} (small : c.mmapSize < 2 ^ 63) : c.capacity < 2 ^ 63 :=
  lt_of_le_of_lt (Nat.sub_le _ _) small

/-- A chunk alone doubles nothing. -/
theorem ArenaView.doubles_single (single : a.front = []) : a.Doubles := by
  intro _ _
  rw [ArenaView.chunks, single]
  exact List.IsChain.singleton _

theorem ArenaView.Doubles.serve (doubles : a.Doubles) (x : Alloc) : (a.serve x).Doubles := by
  have capacities : (a.serve x).chunks.map Chunk.capacity = a.chunks.map Chunk.capacity := by
    simp [ArenaView.serve, ArenaView.chunks, Chunk.capacity]
  have sizes : (a.serve x).chunks.map Chunk.mmapSize = a.chunks.map Chunk.mmapSize := by
    simp [ArenaView.serve, ArenaView.chunks]
  intro unlimited small
  rw [capacities]
  refine doubles unlimited ?_
  rw [← List.forall_mem_map (P := (· < 2 ^ 63)), ← sizes, List.forall_mem_map]
  exact small

theorem ArenaView.Doubles.extend (doubles : a.Doubles) (block need : Nat) :
    (a.extend block (a.grownSize platform need)).Doubles := by
  intro unlimited small
  rw [a.extend_chunks] at small ⊢
  obtain ⟨before, _⟩ := List.forall_mem_append.mp small
  have half := Chunk.capacity_lt (before a.last a.last_mem)
  have policy : GrowthPolicy platform a.maxChunkSize _ need _ := a.extend_policy half block need
  rw [List.map_append]
  refine List.isChain_append.mpr ⟨doubles unlimited before, List.IsChain.singleton _, ?_⟩
  rintro c last d ⟨⟩
  have ends : (a.chunks.map Chunk.capacity).getLast? = some a.last.capacity := by
    rw [ArenaView.chunks, List.map_append]
    exact List.getLast?_concat
  obtain rfl := Option.some.inj (ends.symm.trans last)
  exact policy.doubles unlimited

/-- **Every change keeps the doubling.** -/
theorem ArenaView.Changed.doubles (changed : a.Changed platform b) (doubles : a.Doubles) :
    b.Doubles := by
  cases changed with
  | requested _ requested =>
      cases requested with
      | kept => exact doubles
      | served x => exact doubles.serve x
      | wasted block => exact doubles.extend block _
      | grown block x => exact (doubles.extend block _).serve x
  | reset => exact ArenaView.doubles_single rfl

/-! ## Every run -/

/-- An arena after a call is one with a single chunk, or was an arena before it. -/
theorem ArenaMove.origin (move : ArenaMove w views w' views') (member : b ∈ views') :
    b.front = [] ∨ ∃ a ∈ views, a.address = b.address := by
  have among : ∀ {a c : ArenaView} {rest : List ArenaView}, views.Perm (a :: rest) →
      a.address = c.address → b ∈ c :: rest → ∃ a ∈ views, a.address = b.address := by
    intro a c rest split same inViews
    rcases List.mem_cons.mp inViews with rfl | inRest
    · exact ⟨a, split.mem_iff.mpr List.mem_cons_self, same⟩
    · exact ⟨b, split.mem_iff.mpr (List.mem_cons_of_mem a inRest), rfl⟩
  cases move with
  | stay _ => exact Or.inr ⟨b, member, rfl⟩
  | create _ =>
      rcases List.mem_cons.mp member with rfl | inViews
      · exact Or.inl rfl
      · exact Or.inr ⟨b, inViews, rfl⟩
  | serve split _ => exact Or.inr (among split (ArenaView.serve_first _ _).1.symm member)
  | grow split _ => exact Or.inr (among split (ArenaView.extend_address _ _ _).symm member)
  | growServe split _ =>
      refine Or.inr (among split ?_ member)
      exact ((ArenaView.serve_first _ _).1.trans (ArenaView.extend_address _ _ _)).symm
  | reset split _ => exact Or.inr (among split (ArenaView.reset_address _).symm member)
  | destroy split _ =>
      exact Or.inr ⟨b, split.mem_iff.mpr (List.mem_cons_of_mem _ member), rfl⟩

/-- An arena that is live after a call was not destroyed by it. -/
theorem ArenaState.Live.not_destroyed {event : ArenaEvent}
    (step : (arenaSystem core platform foreign).Next s event s') (live : s'.Live arena) :
    event.call ≠ .destroy arena := by
  obtain ⟨call, outcome⟩ := event
  rintro rfl
  have performed := step.2
  rw [ArenaState.perform] at performed
  obtain ⟨w, _, same⟩ := Option.map_eq_some_iff.mp performed
  cases same
  obtain ⟨h, member, address⟩ := live
  have kept : h ∈ dropArena s.arenas arena := member
  exact of_decide_eq_true (List.mem_filter.mp kept).2 address

/-- The doubling of an arena, as it is in memory. -/
theorem ArenaView.Shown.doubles_iff (shown : a.Shown platform foreign w) :
    a.Doubles ↔ (arenaMaxChunkSize w.mem a.address = 0 → SmallBlocks w.mem a.address →
      Doubling (chunkCapacities w.mem a.address)) := by
  have here := shown.here
  have small : SmallBlocks w.mem a.address ↔ ∀ c ∈ a.chunks, c.mmapSize < 2 ^ 63 := by
    obtain ⟨views, heap, inViews⟩ := shown
    rw [SmallBlocks, heap.arenaChain_eq inViews, List.forall_mem_map]
    exact forall₂_congr fun c member => by rw [(here.chunks c member).mmapSize]
  rw [small, shown.limit, shown.capacities]
  rfl

/-- The invariant of the growth: the capacities of every live arena double. -/
def AllDouble (platform : Platform) (foreign : List Extent) (s : ArenaState) : Prop :=
  ArenaInv platform foreign s ∧ ∀ arena, s.Live arena → arenaMaxChunkSize s.world.mem arena = 0 →
    SmallBlocks s.world.mem arena → Doubling (chunkCapacities s.world.mem arena)

theorem AllDouble.step {event : ArenaEvent} (before : AllDouble platform foreign s)
    (step : (arenaSystem core platform foreign).Next s event s') :
    AllDouble platform foreign s' := by
  obtain ⟨inv, doubles⟩ := before
  refine ⟨inv.step step, ?_⟩
  intro arena live
  have spared := live.not_destroyed step
  obtain ⟨views, heap, perm⟩ := inv
  obtain ⟨views', moved⟩ := ArenaInv.step_moves heap perm step
  obtain ⟨h, member, rfl⟩ := live
  obtain ⟨b, inViews, rfl⟩ := List.mem_map.mp (moved.clients.mem_iff.mp member)
  have after : b.Shown platform foreign s'.world := ⟨views', moved.heap, inViews⟩
  rcases moved.move.origin inViews with single | ⟨a, earlier, same⟩
  · exact after.doubles_iff.mp (ArenaView.doubles_single single)
  · have known : a.client ∈ s.arenas := perm.mem_iff.mpr (List.mem_map_of_mem earlier)
    have was : s.Live b.client.address := ⟨a.client, known, same⟩
    obtain ⟨c, d, address, shown, changed, now⟩ :=
      ArenaInv.follow ⟨views, heap, perm⟩ step was spared
    have doubled : c.Doubles := by
      rw [shown.doubles_iff, address]
      exact doubles _ was
    have kept := now.doubles_iff.mp (changed.doubles doubled)
    rwa [changed.first.1, address] at kept

theorem AllDouble.reachable (reachable : (arenaSystem core platform foreign).Reachable s) :
    AllDouble platform foreign s := by
  refine System.Reachable.invariant ?_ (fun before step => before.step step) reachable
  intro s start
  refine ⟨ArenaInv.start start, ?_⟩
  rintro arena ⟨h, member, _⟩
  obtain ⟨_, _, _, _, _, arenas, _⟩ := start
  rw [arenas] at member
  cases member

/-- A request that changes the current chunk has linked one of the grown size. -/
theorem ArenaView.Requested.grown_last (requested : a.Requested platform need b)
    (moved : b.last.header ≠ a.last.header) :
    ∃ block, b.last.capacity = (a.extend block (a.grownSize platform need)).last.capacity := by
  cases requested with
  | kept => exact absurd rfl moved
  | served x => exact absurd rfl moved
  | wasted block => exact ⟨block, rfl⟩
  | grown block x => exact ⟨block, rfl⟩

/-- **The growth of arenas.** In every run, a chunk that an arena adds for a request
follows the growth policy; and without a limit, a chain of `k` added chunks ends in
one of at least `2 ^ k` times the capacity of the first. -/
theorem arena_growth_policy (core : BcCore) (platform : Platform) (foreign : List Extent)
    (reachable : (arenaSystem core platform foreign).Reachable s) (live : s.Live arena)
    (small : SmallBlocks s.world.mem arena) :
    (∀ (event : ArenaEvent) (s' : ArenaState) (size alignment : Nat),
      event.call.Asks core s arena size alignment → size + alignment < 2 ^ 64 →
      (arenaSystem core platform foreign).Next s event s' →
      arenaCurrentChunk s'.world.mem arena ≠ arenaCurrentChunk s.world.mem arena →
      GrowthPolicy platform (arenaMaxChunkSize s.world.mem arena)
        (chunkCapacity s.world.mem (arenaCurrentChunk s.world.mem arena)) (size + alignment)
        (chunkCapacity s'.world.mem (arenaCurrentChunk s'.world.mem arena))) ∧
    (arenaMaxChunkSize s.world.mem arena = 0 →
      2 ^ ((arenaChain s.world.mem arena).length - 1) *
          chunkCapacity s.world.mem (arenaFirstChunk s.world.mem arena) ≤
        chunkCapacity s.world.mem (arenaCurrentChunk s.world.mem arena)) := by
  obtain ⟨inv, doubles⟩ := AllDouble.reachable reachable
  constructor
  · intro event s' size alignment asks fits step moved
    obtain ⟨views, heap, perm⟩ := inv
    obtain ⟨a, b, rest, rfl, split, requested, after⟩ := heap.follow_request perm step asks
    have inViews : a ∈ views := split.mem_iff.mpr List.mem_cons_self
    have shown : a.Shown platform foreign s.world := ⟨views, heap, inViews⟩
    have now : b.Shown platform foreign s'.world := ⟨_, after, List.mem_cons_self⟩
    rw [wadd_of_lt fits] at requested
    have address : b.address = a.address :=
      (ArenaView.Changed.requested fits requested).first.1
    have half : a.last.capacity < 2 ^ 63 := by
      apply Chunk.capacity_lt
      rw [SmallBlocks, heap.arenaChain_eq inViews, List.forall_mem_map] at small
      have last := small a.last a.last_mem
      rwa [(shown.here.chunks a.last a.last_mem).mmapSize] at last
    rw [← address, now.currentChunk, address, shown.currentChunk] at moved
    obtain ⟨block, capacity⟩ := requested.grown_last moved
    rw [shown.limit, shown.currentCapacity, ← address, now.currentCapacity, capacity]
    exact a.extend_policy half block _
  · intro unlimited
    have doubling := doubles arena live unlimited small
    obtain ⟨a, rfl, shown⟩ := inv.shown live
    have chain : (arenaChain s.world.mem a.address).length = a.grown.length + 1 := by
      have lengths := congrArg List.length shown.capacities
      rwa [chunkCapacities, List.length_map, List.length_map, a.chunks_eq, List.length_cons]
        at lengths
    rw [shown.capacities] at doubling
    have ends : (a.chunks.map Chunk.capacity).getLast? = some a.last.capacity := by
      rw [ArenaView.chunks, List.map_append]
      exact List.getLast?_concat
    rw [a.chunks_eq, List.map_cons] at doubling ends
    have least := doubling.le_getLast _ ends
    rw [List.length_map] at least
    rw [chain, Nat.add_sub_cancel, shown.firstCapacity, shown.currentCapacity]
    exact least

/-- A third chunk for the grown arena. -/
def thirdChunk : ArenaEvent × ArenaState :=
  twoArenas.event BcCore.reference Platform.x86 (.allocate 131072 20000 1 (some 524288))

/-- The chunks of the grown arena have doubled, and the third one keeps the policy. -/
theorem arena_growth_policy_twoArenas :
    (GrowthPolicy Platform.x86 (arenaMaxChunkSize twoArenas.world.mem 131072)
        (chunkCapacity twoArenas.world.mem (arenaCurrentChunk twoArenas.world.mem 131072))
        (20000 + 1)
        (chunkCapacity thirdChunk.2.world.mem
          (arenaCurrentChunk thirdChunk.2.world.mem 131072)) ∧
      2 ^ ((arenaChain twoArenas.world.mem 131072).length - 1) *
          chunkCapacity twoArenas.world.mem (arenaFirstChunk twoArenas.world.mem 131072) ≤
        chunkCapacity twoArenas.world.mem (arenaCurrentChunk twoArenas.world.mem 131072)) ∧
    chunkCapacities twoArenas.world.mem 131072 = [3968, 8128] ∧
      chunkCapacities thirdChunk.2.world.mem 131072 = [3968, 8128, 20416] := by
  have live : twoArenas.Live 131072 := by
    change ∃ h ∈ twoArenas.arenas, h.address = 131072
    decide +kernel
  have small : SmallBlocks twoArenas.world.mem 131072 := by
    change ∀ c ∈ arenaChain twoArenas.world.mem 131072, chunkMmapSize twoArenas.world.mem c < 2 ^ 63
    decide +kernel
  have unlimited : arenaMaxChunkSize twoArenas.world.mem 131072 = 0 := by decide +kernel
  have allowed : System.AllowsAll (ArenaState.event BcCore.reference Platform.x86)
      ArenaState.Allows twoArenas [.allocate 131072 20000 1 (some 524288)] := by decide +kernel
  have moved : arenaCurrentChunk thirdChunk.2.world.mem 131072 ≠
      arenaCurrentChunk twoArenas.world.mem 131072 := by decide +kernel
  have step := arena_event_next twoArenas_reachable allowed.1
  obtain ⟨policy, doubled⟩ :=
    arena_growth_policy BcCore.reference Platform.x86 [] twoArenas_reachable live small
  exact ⟨⟨policy _ _ 20000 1 (.allocate 131072 20000 1 _) (by decide) step moved,
    doubled unlimited⟩, by decide +kernel⟩

end BcAllocators
