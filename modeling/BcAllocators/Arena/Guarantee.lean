import BcAllocators.Arena.Capacities

/-!
# What an arena guarantees

An arena that was created with a capacity serves, from its first chunk, every
sequence of requests whose sizes and paddings add up to no more than that capacity.
It does so right after its creation and again after each reset, whatever has
happened to it in between, since the first chunk stays as large as it was
(`arena_capacity_guaranteed`).

A request for some bytes at an alignment uses at most its demand, the bytes and one
less than the alignment, wherever the used part of the payload ends
(`Chunk.offer_within`).
-/

set_option autoImplicit false

namespace BcAllocators

open Machine

variable {core : BcCore} {platform : Platform} {foreign : List Extent} {s s' : ArenaState}
variable {w : World} {a : ArenaView} {views rest : List ArenaView}
variable {arena capacity : Nat}

/-! ## Requests -/

/-- A request to an arena, with the answer of the kernel if it is asked. -/
structure ArenaRequest where
  size : Nat
  alignment : Nat
  answer : Option Nat
deriving DecidableEq, Repr

namespace ArenaRequest

/-- The bytes that a request uses at most. -/
def demand (r : ArenaRequest) : Nat := r.size + r.alignment - 1

/-- A request for at least a byte, at a power of two. -/
def Proper (r : ArenaRequest) : Prop := 1 ≤ r.size ∧ r.alignment.isPowerOfTwo

end ArenaRequest

/-- The bytes that some requests use at most. -/
def totalDemand (requests : List ArenaRequest) : Nat :=
  (requests.map ArenaRequest.demand).sum

/-- Requests to an arena, one after the other. -/
def arenaAllocateAll (core : BcCore) (platform : Platform) (arena : Nat) :
    World → List ArenaRequest → World × List PtrResult
  | w, [] => (w, [])
  | w, r :: requests =>
    let (w, result) := arenaAllocate core platform w arena r.size r.alignment r.answer
    let (w, results) := arenaAllocateAll core platform arena w requests
    (w, result :: results)

/-- All requests were served from the first chunk: each result is aligned and lies in
its payload, the chain is that chunk, and no block was taken from the cache or
mapped. -/
structure ServedFromFirst (w : World) (arena : Nat) (requests : List ArenaRequest)
    (served : World × List PtrResult) : Prop where
  results : List.Forall₂ (fun r result =>
    result.ok = true ∧ r.alignment ∣ result.out ∧
      chunkMemoryStart w.mem (arenaFirstChunk w.mem arena) ≤ result.out ∧
      result.out + r.size ≤ chunkMemoryStart w.mem (arenaFirstChunk w.mem arena) +
        chunkCapacity w.mem (arenaFirstChunk w.mem arena)) requests served.2
  chain : arenaChain served.1.mem arena = [arenaFirstChunk w.mem arena]
  context : served.1.ctx = w.ctx
  kernel : served.1.kernel = w.kernel

/-- The arena serves all requests that demand no more than the capacity. -/
def Guarantees (core : BcCore) (platform : Platform) (w : World) (arena capacity : Nat) : Prop :=
  ∀ requests : List ArenaRequest, (∀ r ∈ requests, r.Proper) → totalDemand requests ≤ capacity →
    ServedFromFirst w arena requests (arenaAllocateAll core platform arena w requests)

/-! ## An arena with one chunk -/

/-- **A request uses at most its demand**, wherever the payload starts. -/
theorem Chunk.offer_within (c : Chunk) {r : ArenaRequest} (proper : r.Proper) :
    c.start + c.used ≤ c.offer r.alignment ∧
      c.offer r.alignment + r.size ≤ c.start + (c.used + r.demand) := by
  have pos := isPowerOfTwo_pos proper.2
  have above : c.start + c.used ≤ c.offer r.alignment := le_roundUp pos
  have below : c.offer r.alignment < c.start + c.used + r.alignment := roundUp_lt pos
  have some := proper.1
  unfold ArenaRequest.demand
  omega

/-- A request that fits in the last chunk is served from it. -/
theorem ArenaHeap.allocate_fits (core : BcCore) (heap : ArenaHeap platform w (a :: rest) foreign)
    {r : ArenaRequest} (proper : r.Proper) (fits : a.last.used + r.demand ≤ a.last.capacity) :
    ∃ m, arenaAllocate core platform w a.address r.size r.alignment r.answer =
        ({ w with mem := m }, ⟨true, a.last.offer r.alignment⟩) ∧
      ArenaHeap platform { w with mem := m }
        (a.serve ⟨a.last.offer r.alignment, r.size, r.alignment⟩ :: rest) foreign := by
  have within := (a.last.offer_within proper).2
  have whole := ((heap.shape a List.mem_cons_self).fit a.last a.last_mem).start_add_capacity
  have stop := heap.stop_lt List.mem_cons_self a.last_mem
  obtain ⟨some, power⟩ := proper
  obtain ⟨pos, single⟩ := alignment_test.mpr power
  have sizeWord : r.size < 2 ^ 64 := by omega
  have alignmentWord : r.alignment < 2 ^ 64 := by
    unfold ArenaRequest.demand at fits
    omega
  rcases heap.allocate_last core some sizeWord alignmentWord power with
    ⟨_, m, served, after, _⟩ | ⟨full, _⟩
  · refine ⟨_, ?_, after⟩
    simp only [arenaAllocate, if_neg (not_or.mpr ⟨Nat.ne_of_gt some, pos⟩), if_neg single, served]
  · exact absurd (show _ ≤ a.last.stop by omega) full

/-- **Requests that fit together are served one after the other.** -/
theorem ArenaHeap.allocateAll_fits (core : BcCore) {requests : List ArenaRequest}
    (proper : ∀ r ∈ requests, r.Proper) :
    ∀ {w : World} {a : ArenaView}, ArenaHeap platform w (a :: rest) foreign →
      a.last.used + totalDemand requests ≤ a.last.capacity →
      ∃ m b, (arenaAllocateAll core platform a.address w requests).1 = { w with mem := m } ∧
        ArenaHeap platform { w with mem := m } (b :: rest) foreign ∧ b.address = a.address ∧
        b.chunks.map Chunk.header = a.chunks.map Chunk.header ∧
        List.Forall₂ (fun r result => result.ok = true ∧ r.alignment ∣ result.out ∧
          a.last.start ≤ result.out ∧ result.out + r.size ≤ a.last.start + a.last.capacity)
          requests (arenaAllocateAll core platform a.address w requests).2 := by
  induction requests with
  | nil =>
      intro w a heap _
      exact ⟨w.mem, a, rfl, heap, rfl, rfl, .nil⟩
  | cons r requests ih =>
      intro w a heap fits
      obtain ⟨first, others⟩ := List.forall_mem_cons.mp proper
      have total : totalDemand (r :: requests) = r.demand + totalDemand requests := rfl
      obtain ⟨m, served, after⟩ := heap.allocate_fits core first (by omega)
      obtain ⟨above, within⟩ := a.last.offer_within first
      let x : Alloc := ⟨a.last.offer r.alignment, r.size, r.alignment⟩
      have address : (a.serve x).address = a.address := (a.serve_first x).1
      have used : (a.serve x).last.used = a.last.offer r.alignment + r.size - a.last.start := rfl
      have size : (a.serve x).last.capacity = a.last.capacity := rfl
      have room : (a.serve x).last.used + totalDemand requests ≤ (a.serve x).last.capacity := by
        rw [used, size]
        omega
      obtain ⟨m', b, result, heap', same, headers, results⟩ := ih others after room
      rw [address] at result same results
      refine ⟨m', b, ?_, heap', same, headers.trans (a.serve_headers x), ?_⟩
      · rw [arenaAllocateAll, served]
        exact result
      · rw [arenaAllocateAll, served]
        refine .cons ⟨rfl, dvd_roundUp _ _, ?_, ?_⟩ results
        · exact (Nat.le_add_right _ _).trans above
        · exact within.trans (Nat.add_le_add_left (by omega) _)

/-- **An unused arena of one chunk guarantees the capacity of that chunk.** -/
theorem ArenaHeap.guarantees (core : BcCore) (heap : ArenaHeap platform w (a :: rest) foreign)
    (single : a.front = []) (unused : a.last.used = 0) (enough : capacity ≤ a.last.capacity) :
    Guarantees core platform w a.address capacity := by
  intro requests proper fits
  have here := heap.here a List.mem_cons_self
  have chunks : a.chunks = [a.last] := by rw [ArenaView.chunks, single, List.nil_append]
  have one : a.first = a.last := by rw [ArenaView.first, single, List.headD_nil]
  have first : arenaFirstChunk w.mem a.address = a.last.header := by
    rw [← one]
    exact ArenaView.firstChunk_of_header here.header
  have fields := here.chunks a.last a.last_mem
  obtain ⟨m, b, result, after, same, headers, results⟩ :=
    heap.allocateAll_fits core proper (by rw [unused]; omega)
  constructor
  case results => rwa [first, fields.memoryStart, fields.capacity]
  case chain =>
    have chain := after.arenaChain_eq List.mem_cons_self
    rw [same, headers, chunks] at chain
    rw [result, first]
    exact chain
  case context => rw [result]
  case kernel => rw [result]

/-! ## After a creation -/

/-- The call creates an arena with a capacity. -/
inductive ArenaCall.Creates (capacity : Nat) : ArenaCall → Prop where
  | create (answer : Option Nat) : Creates capacity (.create capacity answer)
  | createGrowable (maxChunkSize : Nat) (answer : Option Nat) :
      Creates capacity (.createGrowable capacity maxChunkSize answer)

/-- An arena that has just been created: live, with one unused chunk of at least the
capacity asked for. -/
theorem ArenaInv.created (inv : ArenaInv platform foreign s) {event : ArenaEvent}
    (step : (arenaSystem core platform foreign).Next s event s')
    (creates : event.call.Creates capacity) (created : event.result = ⟨true, arena⟩) :
    s'.Live arena ∧ ∃ a rest, a.address = arena ∧
      ArenaHeap platform s'.world (a :: rest) foreign ∧ a.front = [] ∧ a.last.used = 0 ∧
      capacity ≤ a.last.capacity := by
  obtain ⟨views, heap, perm⟩ := inv
  obtain ⟨call, outcome⟩ := event
  obtain ⟨allowed, performed⟩ := step
  obtain rfl : outcome = ⟨true, arena⟩ := created
  have unused : ∀ {initialChunkSize maxChunkSize : Nat} {growable : Bool}
      {result : World × PtrResult}, ArenaCreateOutcome platform s.world views foreign capacity
        initialChunkSize maxChunkSize growable result →
      s.created result = (s', ⟨true, arena⟩) →
      s'.Live arena ∧ ∃ a rest, a.address = arena ∧
        ArenaHeap platform s'.world (a :: rest) foreign ∧ a.front = [] ∧ a.last.used = 0 ∧
        capacity ≤ a.last.capacity := by
    intro initialChunkSize maxChunkSize growable result outcome same
    cases outcome with
    | refused => cases congrArg (fun r => r.2.ok) same
    | created after _ _ room =>
        obtain rfl := congrArg (fun r => r.2.out) same
        obtain rfl := congrArg Prod.fst same
        refine ⟨⟨_, List.mem_cons_self, rfl⟩, _, views, rfl, after, rfl, rfl, ?_⟩
        exact Nat.le_sub_of_add_le ((Nat.add_comm _ _).trans_le room)
  cases creates with
  | create answer =>
      exact unused (arenaMakeFirst_outcome core heap false answer allowed ⟨allowed, allowed⟩)
        (Option.some.inj performed)
  | createGrowable maxChunkSize answer =>
      exact unused (arenaCreateGrowable_outcome core heap answer allowed)
        (Option.some.inj performed)

/-! ## After a reset -/

/-- In a run that does not destroy an arena, the arena stays live and its first chunk
as large as it was. -/
structure KeepsFirst (platform : Platform) (foreign : List Extent) (arena capacity : Nat)
    (events : List ArenaEvent) (t : ArenaState) : Prop where
  inv : ArenaInv platform foreign t
  kept : (∀ event ∈ events, event.call ≠ .destroy arena) → t.Live arena ∧
    capacity ≤ chunkCapacity t.world.mem (arenaFirstChunk t.world.mem arena)

theorem KeepsFirst.step {t t' : ArenaState} {events : List ArenaEvent} {event : ArenaEvent}
    (before : KeepsFirst platform foreign arena capacity events t)
    (step : (arenaSystem core platform foreign).Next t event t') :
    KeepsFirst platform foreign arena capacity (events ++ [event]) t' := by
  refine ⟨before.inv.step step, ?_⟩
  intro spared
  obtain ⟨live, enough⟩ :=
    before.kept fun event earlier => spared event (List.mem_append_left _ earlier)
  have last := spared event (List.mem_append_right _ List.mem_cons_self)
  refine ⟨live.step step last, ?_⟩
  obtain ⟨a, b, rfl, shown, changed, after⟩ := before.inv.follow step live last
  obtain ⟨address, capacity, _⟩ := changed.first
  rwa [← address, after.firstCapacity, capacity, ← shown.firstCapacity]

/-- A reset makes the arena guarantee the capacity of its first chunk. -/
theorem ArenaInv.reset_guarantees (inv : ArenaInv platform foreign s) {event : ArenaEvent}
    (step : (arenaSystem core platform foreign).Next s event s')
    (resets : event.call = .reset arena ∨ event.call = .resetSecure arena)
    (enough : capacity ≤ chunkCapacity s.world.mem (arenaFirstChunk s.world.mem arena)) :
    Guarantees core platform s'.world arena capacity := by
  obtain ⟨views, heap, perm⟩ := inv
  obtain ⟨a, rest, rfl, split, after⟩ := heap.follow_reset perm step resets
  have shown : a.Shown platform foreign s.world :=
    ⟨views, heap, split.mem_iff.mpr List.mem_cons_self⟩
  rw [shown.firstCapacity] at enough
  exact after.guarantees core rfl rfl enough

/-- **The capacity of an arena is guaranteed.** An arena that was created with a
capacity serves from its first chunk all requests that demand no more than that
together, right after its creation and right after each reset. As long as the arena is not
destroyed it can be reset: the call returns. -/
theorem arena_capacity_guaranteed (core : BcCore) (platform : Platform) (foreign : List Extent)
    {s s' : ArenaState} (reachable : (arenaSystem core platform foreign).Reachable s)
    {event : ArenaEvent} {capacity arena : Nat} (creates : event.call.Creates capacity)
    (created : event.result = ⟨true, arena⟩)
    (step : (arenaSystem core platform foreign).Next s event s') :
    Guarantees core platform s'.world arena capacity ∧
      ∀ events t, (arenaSystem core platform foreign).Run s' events t →
        (∀ event ∈ events, event.call ≠ .destroy arena) →
        (∀ call : ArenaCall, call = .reset arena ∨ call = .resetSecure arena →
          ∃ result t', (arenaSystem core platform foreign).Next t ⟨call, result⟩ t') ∧
        ∀ event t', event.call = .reset arena ∨ event.call = .resetSecure arena →
          (arenaSystem core platform foreign).Next t event t' →
          Guarantees core platform t'.world arena capacity := by
  have inv := ArenaInv.reachable reachable
  obtain ⟨live, a, rest, rfl, heap, single, unused, enough⟩ := inv.created step creates created
  refine ⟨heap.guarantees core single unused enough, ?_⟩
  intro events t run spared
  have one : a.first = a.last := by rw [ArenaView.first, single, List.headD_nil]
  have shown : a.Shown platform foreign s'.world := ⟨_, heap, List.mem_cons_self⟩
  have start : KeepsFirst platform foreign a.address capacity [] s' := by
    refine ⟨inv.step step, fun _ => ⟨live, ?_⟩⟩
    rw [shown.firstCapacity, one]
    exact enough
  have after := run.traced (fun before step => KeepsFirst.step before step) start
  obtain ⟨still, first⟩ := after.kept spared
  constructor
  · intro call resets
    have there := run.invariant (fun here step => here.next step) (reachable.next step)
    have allowed : t.Allows call := by
      rcases resets with rfl | rfl
      · exact still
      · exact still
    obtain ⟨t', result, performed⟩ := arena_call_returns there allowed
    exact ⟨result, t', allowed, performed⟩
  · intro event t' resets next
    exact after.inv.reset_guarantees next resets first

/-- The arena of 100 bytes, right after its creation and after each reset. -/
theorem arena_capacity_guaranteed_oneArena :
    Guarantees BcCore.reference Platform.x86 oneArena.world 131072 100 ∧
      ∀ events t, (arenaSystem BcCore.reference Platform.x86 []).Run oneArena events t →
        (∀ event ∈ events, event.call ≠ .destroy 131072) →
        (∀ call : ArenaCall, call = .reset 131072 ∨ call = .resetSecure 131072 →
          ∃ result t', (arenaSystem BcCore.reference Platform.x86 []).Next t ⟨call, result⟩ t') ∧
        ∀ event t', event.call = .reset 131072 ∨ event.call = .resetSecure 131072 →
          (arenaSystem BcCore.reference Platform.x86 []).Next t event t' →
          Guarantees BcCore.reference Platform.x86 t'.world 131072 100 :=
  arena_capacity_guaranteed BcCore.reference Platform.x86 [] (.start smallContext_start)
    (.createGrowable 0 (some 131072)) (by decide)
    (show (arenaSystem BcCore.reference Platform.x86 []).Next smallContext
        ⟨.createGrowable 100 0 (some 131072), (smallContext.created
          (arenaCreateGrowable BcCore.reference Platform.x86 smallContext.world 100 0
            (some 131072))).2⟩ oneArena from
      ⟨show (100 : Nat) < 2 ^ 64 ∧ (0 : Nat) < 2 ^ 64 by decide, rfl⟩)

/-- Two requests that demand 100 bytes, at different alignments. -/
example : (arenaAllocateAll BcCore.reference Platform.x86 131072 oneArena.world
    [⟨5, 64, none⟩, ⟨1, 32, none⟩]).2 = [⟨true, 131200⟩, ⟨true, 131232⟩] := by
  decide

end BcAllocators
