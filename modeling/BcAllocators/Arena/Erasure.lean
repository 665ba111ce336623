import BcAllocators.Arena.Pages
import BcAllocators.Arena.Twins

/-!
# What a secure reset erases

A secure reset is for erasing what a client has stored: two runs that make the same
calls, and differ in the bytes that the client wrote or copied, are to leave the same
bytes in the payloads. The two runs are one system, whose state is a pair with the
addresses written since the two have parted.

The used part of each payload is erased. The advice about the rest of it is refused,
so what an earlier plain reset has left behind the used part survives. The bytes of the
two runs are the same exactly when they were the same there (`erased_iff`), as they
are when nothing written since is there.
-/

set_option autoImplicit false

namespace BcAllocators

open Machine

variable {core : BcCore} {platform : Platform} {foreign : List Extent} {s s' : ArenaState}
variable {w w' : World} {n : Memory} {a : ArenaView} {views rest : List ArenaView}

/-! ## Two runs -/

/-- Two runs, and the addresses that clients wrote or copied to since they parted. -/
structure ArenaPair where
  left : ArenaState
  right : ArenaState
  written : Set Nat

/-- Two calls that differ in what the client stores only. -/
def SameCall (core : BcCore) (s t : ArenaState) : ArenaCall → ArenaCall → Prop
  | .create capacity answer, .create capacity' answer' => capacity = capacity' ∧ answer = answer'
  | .createGrowable initial maximum answer, .createGrowable initial' maximum' answer' =>
      initial = initial' ∧ maximum = maximum' ∧ answer = answer'
  | .allocate arena size alignment answer, .allocate arena' size' alignment' answer' =>
      arena = arena' ∧ size = size' ∧ alignment = alignment' ∧ answer = answer'
  | .copyString arena source answer, .copyString arena' source' answer' =>
      arena = arena' ∧ answer = answer' ∧
        core.length t.world.mem source' = core.length s.world.mem source
  | .reset arena, .reset arena' => arena = arena'
  | .write address bytes, .write address' bytes' =>
      address = address' ∧ bytes.length = bytes'.length
  | _, _ => False

/-- The addresses that a call writes or copies to for the client. -/
def touched (core : BcCore) (s : ArenaState) (event : ArenaEvent) : Set Nat :=
  match event.call with
  | .write address bytes => Set.Ico address (address + bytes.length)
  | .copyString _ source _ =>
      {p | event.result.ok = true ∧ p ∈ Set.Ico event.result.out
        (event.result.out + wadd (core.length s.world.mem source) 1)}
  | _ => ∅

/-- Two runs that part at a reachable state and make the same calls. -/
def pairSystem (core : BcCore) (platform : Platform) (foreign : List Extent) :
    System ArenaPair (ArenaEvent × ArenaEvent) where
  Start p := (arenaSystem core platform foreign).Reachable p.left ∧ p.right = p.left ∧
    p.written = ∅
  Next p events p' :=
    (arenaSystem core platform foreign).Next p.left events.1 p'.left ∧
      (arenaSystem core platform foreign).Next p.right events.2 p'.right ∧
      SameCall core p.left p.right events.1.call events.2.call ∧
      p'.written = p.written ∪ touched core p.left events.1

/-! ## Twin heaps -/

/-- Two heaps with the same ledger have the same blocks. -/
theorem ArenaHeap.blocks_perm {views' : List ArenaView}
    (left : ArenaHeap platform w views foreign)
    (right : ArenaHeap platform { w with mem := n } views' foreign) :
    (arenaBlocks views).Perm (arenaBlocks views') := by
  have same := left.ledger.mapped.symm.trans right.ledger.mapped
  exact (List.perm_append_right_iff _).mp ((List.perm_append_right_iff _).mp
    ((List.perm_append_right_iff _).mp same))

/-- What was added to the same blocks is the same. -/
theorem added_eq {added added' : Option Extent} {blocks : List Extent}
    (perm : (added.toList ++ blocks).Perm (added'.toList ++ blocks)) : added = added' := by
  have lists := (List.perm_append_right_iff blocks).mp perm
  cases added with
  | none =>
      cases added' with
      | none => rfl
      | some e => exact absurd lists.length_eq (by simp)
  | some e =>
      cases added' with
      | none => exact absurd lists.length_eq (by simp)
      | some f => exact congrArg some (List.singleton_perm_singleton.mp lists)

/-- The arena after a request: perhaps with a new chunk, and with the allocation if
there is one. -/
def ArenaView.answered (a : ArenaView) (added : Option Extent) (size alignment : Nat)
    (result : PtrResult) : ArenaView :=
  let b := added.elim a fun e => a.extend e.start e.size
  if result.ok then b.serve ⟨result.out, size, alignment⟩ else b

/-- **The arenas after a request**, whatever its outcome. -/
theorem ArenaAllocateOutcome.answered {size alignment : Nat} {answer : Option Nat}
    {writes : Nat → Set Nat} {result : World × PtrResult}
    (heap : ArenaHeap platform w (a :: rest) foreign)
    (outcome : ArenaAllocateOutcome core platform w a rest foreign size alignment answer writes
      result) :
    ∃ added : Option Extent,
      ArenaHeap platform result.1 (a.answered added size alignment result.2 :: rest) foreign ∧
      (arenaBlocks (a.answered added size alignment result.2 :: rest)).Perm
        (added.toList ++ arenaBlocks (a :: rest)) := by
  have grown : ∀ block mmapSize, (arenaBlocks (a.extend block mmapSize :: rest)).Perm
      (⟨block, mmapSize⟩ :: arenaBlocks (a :: rest)) := by
    intro block mmapSize
    simp only [arenaBlocks, List.flatMap_cons, ArenaView.extend_blocks]
    exact (List.perm_append_singleton _ _).append_right _
  have served : ∀ (b : ArenaView) (x : Alloc),
      arenaBlocks (b.serve x :: rest) = arenaBlocks (b :: rest) := by
    intro b x
    simp only [arenaBlocks, List.flatMap_cons, ArenaView.serve_blocks]
  cases outcome with
  | refused idle => exact ⟨none, heap, .refl _⟩
  | served after _ _ _ => exact ⟨none, after, .of_eq (served _ _)⟩
  | @grown w' block mmapSize ptr after _ _ _ =>
      exact ⟨some ⟨block, mmapSize⟩, after, (List.Perm.of_eq (served _ _)).trans (grown _ _)⟩
  | @wasted w' block mmapSize after _ _ _ =>
      exact ⟨some ⟨block, mmapSize⟩, after, grown _ _⟩

/-- The client's arenas after a request are those of the heap. -/
theorem answered_clients {arenas : List LiveArena} {added : Option Extent} {size alignment : Nat}
    {result : PtrResult} (perm : arenas.Perm (a.client :: rest.map ArenaView.client))
    (others : ∀ b ∈ rest, b.address ≠ a.address) :
    (if result.ok then changeArena arenas a.address (⟨result.out, size, alignment⟩ :: ·)
      else arenas).Perm
        ((a.answered added size alignment result :: rest).map ArenaView.client) := by
  have client : (added.elim a fun e => a.extend e.start e.size).client = a.client := by
    cases added with
    | none => rfl
    | some e => exact a.extend_client e.start e.size
  simp only [ArenaView.answered]
  split_ifs
  · obtain ⟨address, allocs⟩ := LiveArena.mk.inj client
    rw [List.map_cons, ArenaView.serve_client, address, allocs]
    exact changeArena_perm perm others
  · rw [List.map_cons, client]
    exact perm

/-- Two runs are in worlds that differ in memory only, represent the same arenas, and
have the same bytes where nothing was written. -/
structure PairInv (platform : Platform) (foreign : List Extent) (p : ArenaPair)
    (views : List ArenaView) : Prop where
  left : ArenaHeap platform p.left.world views foreign
  right : ArenaHeap platform p.right.world views foreign
  world : p.right.world = { p.left.world with mem := p.right.world.mem }
  arenas : p.right.arenas = p.left.arenas
  perm : p.left.arenas.Perm (views.map ArenaView.client)
  agree : ∀ q, q ∉ p.written → p.left.world.mem q = p.right.world.mem q

/-! ## Steps -/

/-- What a step of both runs leads to, with the addresses that it wrote. -/
structure PairMoved (platform : Platform) (foreign : List Extent) (s t s' t' : ArenaState)
    (wrote : Set Nat) (views' : List ArenaView) : Prop where
  left : ArenaHeap platform s'.world views' foreign
  right : ArenaHeap platform t'.world views' foreign
  world : t'.world = { s'.world with mem := t'.world.mem }
  arenas : t'.arenas = s'.arenas
  perm : s'.arenas.Perm (views'.map ArenaView.client)
  agree : ∀ q, q ∉ wrote → s.world.mem q = t.world.mem q → s'.world.mem q = t'.world.mem q

section steps

variable {t : ArenaState} (core : BcCore) (left : ArenaHeap platform s.world views foreign)
  (right : ArenaHeap platform { s.world with mem := n } views foreign)
  (arenas : t.arenas = s.arenas) (memory : t.world.mem = n)
  (perm : s.arenas.Perm (views.map ArenaView.client))

include left right arenas memory perm

/-- Both runs create an arena. -/
theorem pair_create {capacity initialChunkSize maxChunkSize : Nat} {growable : Bool}
    {r q : World × PtrResult} (twin : TwinResult s.world n r q)
    (outcome : ArenaCreateOutcome platform s.world views foreign capacity initialChunkSize
      maxChunkSize growable r)
    (outcome' : ArenaCreateOutcome platform { s.world with mem := n } views foreign capacity
      initialChunkSize maxChunkSize growable q) :
    ∃ views', PairMoved platform foreign s t (s.created r).1 (t.created q).1 ∅ views' := by
  obtain ⟨n', same, follows⟩ := twin
  have agree : ∀ p, p ∉ (∅ : Set Nat) → s.world.mem p = t.world.mem p → r.1.mem p = n' p := by
    intro p _ equal
    rw [memory] at equal
    exact follows p equal
  subst same
  cases outcome with
  | refused =>
      refine ⟨views, left, ?_, rfl, arenas, perm, agree⟩
      generalize result : (({ s.world with mem := n' }, .failed) : World × PtrResult) = q
        at outcome'
      cases outcome' with
      | refused => exact right
      | created _ _ _ _ =>
          have failed := congrArg (fun r : World × PtrResult => r.2.ok) result
          cases failed
  | @created w' block mmapSize after _ _ _ =>
      generalize result : (({ w' with mem := n' }, ⟨true, block⟩) : World × PtrResult) = q
        at outcome'
      cases outcome' with
      | refused =>
          have failed := congrArg (fun r : World × PtrResult => r.2.ok) result
          cases failed
      | @created v' block' mmapSize' after' _ _ _ =>
          have world : { w' with mem := n' } = v' := congrArg Prod.fst result
          subst world
          have blocks := added_eq
            (show ((some ⟨block, mmapSize⟩ : Option Extent).toList ++ arenaBlocks views).Perm
              ((some ⟨block', mmapSize'⟩ : Option Extent).toList ++ arenaBlocks views) from
              after.blocks_perm after')
          simp only [Option.some.injEq, Extent.mk.injEq] at blocks
          obtain ⟨rfl, rfl⟩ := blocks
          exact ⟨_, after, after', rfl,
            show (⟨block, []⟩ : LiveArena) :: t.arenas = ⟨block, []⟩ :: s.arenas by rw [arenas],
            perm.cons _, agree⟩

/-- Both runs allocate from an arena. -/
theorem pair_allocate {size alignment : Nat} {answer : Option Nat} {writes : Nat → Set Nat}
    {r : World × PtrResult} {n' : Memory} {wrote : Set Nat} (split : views.Perm (a :: rest))
    (outcome : ArenaAllocateOutcome core platform s.world a rest foreign size alignment answer
      writes r)
    (outcome' : ArenaAllocateOutcome core platform { s.world with mem := n } a rest foreign size
      alignment answer writes ({ r.1 with mem := n' }, r.2))
    (agree : ∀ p, p ∉ wrote → s.world.mem p = n p → r.1.mem p = n' p) :
    ∃ views', PairMoved platform foreign s t (s.allocated a.address size alignment r).1
      (t.allocated a.address size alignment ({ r.1 with mem := n' }, r.2)).1 wrote views' := by
  have first := left.perm split.symm
  obtain ⟨added, after, blocks⟩ := outcome.answered first
  obtain ⟨added', after', blocks'⟩ := outcome'.answered (right.perm split.symm)
  obtain rfl := added_eq ((blocks.symm.trans (after.blocks_perm after')).trans blocks')
  refine ⟨_, after, after', rfl, ?_, ?_, ?_⟩
  · simp only [ArenaState.allocated, ArenaState.after, arenas]
  · exact answered_clients (perm.trans (split.map ArenaView.client)) first.address_ne
  · intro p outside equal
    rw [memory] at equal
    exact agree p outside equal

/-- Both runs reset an arena. -/
theorem pair_reset {s' t' : ArenaState} {r q : PtrResult} (split : views.Perm (a :: rest))
    (world : t.world = { s.world with mem := n })
    (performed : s.perform core platform (.reset a.address) = some (s', r))
    (performed' : t.perform core platform (.reset a.address) = some (t', q)) :
    ∃ views', PairMoved platform foreign s t s' t' ∅ views' := by
  obtain ⟨w', reset, rfl⟩ := ArenaState.perform_reset performed
  obtain ⟨v', reset', rfl⟩ := ArenaState.perform_reset performed'
  have first := left.perm split.symm
  have second := right.perm split.symm
  rw [world] at reset'
  obtain ⟨_, returns, after, _, _⟩ := arenaReset_outcome first
  obtain rfl := Option.some.inj (returns.symm.trans reset)
  obtain ⟨_, returns', after', _, _⟩ := arenaReset_outcome second
  obtain rfl := Option.some.inj (returns'.symm.trans reset')
  obtain ⟨n', twin, follows⟩ := arenaReset_twin first second reset
  obtain rfl := Option.some.inj (twin.symm.trans reset')
  have clients : (changeArena s.arenas a.address fun _ => []).Perm
      ((a.reset :: rest).map ArenaView.client) :=
    changeArena_perm (perm.trans (split.map ArenaView.client)) first.address_ne
  refine ⟨_, after, after', rfl, by rw [ArenaState.after, arenas]; rfl, clients, ?_⟩
  intro p _ equal
  rw [memory] at equal
  exact follows p equal

omit memory in
/-- Both runs write to an allocation. -/
theorem pair_write {address : Nat} {bytes bytes' : List UInt8} {x : Alloc}
    (split : views.Perm (a :: rest)) (world : t.world = { s.world with mem := n })
    (inAllocs : x ∈ a.allocs) (lower : x.ptr ≤ address)
    (upper : address + bytes.length ≤ x.extent.stop) (lengths : bytes.length = bytes'.length) :
    ∃ views', PairMoved platform foreign s t
      (s.after { s.world with mem := storeBytes s.world.mem address bytes } s.arenas)
      (t.after { t.world with mem := storeBytes t.world.mem address bytes' } t.arenas)
      (Set.Ico address (address + bytes.length)) views' := by
  have first := left.perm split.symm
  have second := right.perm split.symm
  have inside : ∀ (m : Memory) (stored : List UInt8), stored.length = bytes.length →
      ChangesOnly x.extent.bytes m (storeBytes m address stored) := by
    intro m stored long
    refine (changesOnly_storeBytes m address stored).mono ?_
    intro p within
    rw [long] at within
    exact Extent.mem_bytes.mpr ⟨lower.trans within.1, lt_of_lt_of_le within.2 upper⟩
  refine ⟨_, first.write inAllocs (inside s.world.mem bytes rfl), ?_, ?_, arenas,
    perm.trans (split.map _), ?_⟩
  · simp only [ArenaState.after, world]
    exact second.write inAllocs (inside n bytes' lengths.symm)
  · simp only [ArenaState.after, world]
  · intro p outside equal
    exact Follows.agree_outside (changesOnly_storeBytes s.world.mem address bytes)
      (fun q without => changesOnly_storeBytes t.world.mem address bytes' q
        (by rw [← lengths]; exact without)) outside equal

end steps

/-- **A step of both runs** that make the same call. -/
theorem PairInv.moves {s t s' t' : ArenaState} {written : Set Nat} {event event' : ArenaEvent}
    (inv : PairInv platform foreign ⟨s, t, written⟩ views)
    (step : (arenaSystem core platform foreign).Next s event s')
    (step' : (arenaSystem core platform foreign).Next t event' t')
    (same : SameCall core s t event.call event'.call) :
    ∃ views', PairMoved platform foreign s t s' t' (touched core s event) views' := by
  obtain ⟨left, right, world, arenas, perm, _⟩ := inv
  obtain ⟨call, result⟩ := event
  obtain ⟨call', result'⟩ := event'
  obtain ⟨allowed, performed⟩ := step
  obtain ⟨_, performed'⟩ := step'
  dsimp only at left right world arenas perm same allowed performed performed'
  rw [world] at right
  generalize memory : t.world.mem = n at world right
  cases call with
  | create capacity answer =>
      cases call' with
      | create capacity' answer' =>
          obtain ⟨rfl, rfl⟩ := same
          rw [ArenaState.perform, world] at performed'
          cases performed
          cases performed'
          exact pair_create left right arenas memory perm
            (arenaMakeFirst_twin core platform s.world n _ _ _ _ _)
            (arenaMakeFirst_outcome core left false answer allowed ⟨allowed, allowed⟩)
            (arenaMakeFirst_outcome core right false answer allowed ⟨allowed, allowed⟩)
      | _ => exact same.elim
  | createGrowable initial maximum answer =>
      cases call' with
      | createGrowable initial' maximum' answer' =>
          obtain ⟨rfl, rfl, rfl⟩ := same
          rw [ArenaState.perform, world] at performed'
          cases performed
          cases performed'
          exact pair_create left right arenas memory perm
            (arenaCreateGrowable_twin core platform s.world n _ _ _)
            (arenaCreateGrowable_outcome core left answer allowed)
            (arenaCreateGrowable_outcome core right answer allowed)
      | _ => exact same.elim
  | allocate arena size alignment answer =>
      cases call' with
      | allocate arena' size' alignment' answer' =>
          obtain ⟨rfl, rfl, rfl, rfl⟩ := same
          obtain ⟨⟨h, live, rfl⟩, sizeWord, alignmentWord⟩ := allowed
          obtain ⟨a, rest, rfl, split, first, _⟩ := ArenaInv.split left perm live
          have second := right.perm split.symm
          obtain ⟨n', again, follows⟩ :=
            arenaAllocate_twin core first second sizeWord alignmentWord answer
          have outcome' := arenaAllocate_outcome core second sizeWord alignmentWord answer
          rw [again] at outcome'
          rw [ArenaState.perform, world, show a.client.address = a.address from rfl, again]
            at performed'
          cases performed
          cases performed'
          exact pair_allocate core left right arenas memory perm split
            (arenaAllocate_outcome core first sizeWord alignmentWord answer) outcome'
            fun p _ => follows p
      | _ => exact same.elim
  | copyString arena source answer =>
      cases call' with
      | copyString arena' source' answer' =>
          obtain ⟨rfl, rfl, lengths⟩ := same
          obtain ⟨h, live, rfl⟩ := allowed
          obtain ⟨a, rest, rfl, split, first, _⟩ := ArenaInv.split left perm live
          have second := right.perm split.symm
          rw [memory] at lengths
          obtain ⟨n', again, agree⟩ := arenaCopyString_twin core first second lengths answer
          have outcome' := arenaCopyString_outcome core second source' answer
          rw [again, lengths] at outcome'
          rw [ArenaState.perform, memory, lengths, world,
            show a.client.address = a.address from rfl, again] at performed'
          cases performed
          cases performed'
          refine pair_allocate core left right arenas memory perm split
            (arenaCopyString_outcome core first source answer) outcome' ?_
          intro p outside equal
          exact agree p (fun ok inside => outside ⟨ok, inside⟩) equal
      | _ => exact same.elim
  | reset arena =>
      cases call' with
      | reset arena' =>
          obtain rfl : arena = arena' := same
          obtain ⟨h, live, rfl⟩ := allowed
          obtain ⟨a, rest, rfl, split, _, _⟩ := ArenaInv.split left perm live
          exact pair_reset core left right arenas memory perm split world performed performed'
      | _ => exact same.elim
  | write address bytes =>
      cases call' with
      | write address' bytes' =>
          obtain ⟨rfl, lengths⟩ := same
          cases performed
          cases performed'
          obtain ⟨h, live, x, inAllocs, lower, upper⟩ := allowed
          obtain ⟨a, rest, rfl, split, _, _⟩ := ArenaInv.split left perm live
          exact pair_write left right arenas perm split world inAllocs lower upper lengths
      | _ => exact same.elim
  | resetSecure arena => cases call' <;> exact same.elim
  | releasePages arena => cases call' <;> exact same.elim
  | destroy arena => cases call' <;> exact same.elim

/-- **The invariant of two runs** that make the same calls. -/
theorem PairInv.reachable {p : ArenaPair}
    (reachable : (pairSystem core platform foreign).Reachable p) :
    ∃ views, PairInv platform foreign p views := by
  refine @System.Reachable.invariant _ _ _ (fun p => ∃ views, PairInv platform foreign p views)
    ?_ ?_ p reachable
  · rintro ⟨s, t, written⟩ ⟨from_start, same, _⟩
    obtain ⟨views, heap, perm⟩ := ArenaInv.reachable from_start
    dsimp only at same
    subst same
    exact ⟨views, heap, heap, rfl, rfl, perm, fun _ _ => rfl⟩
  · rintro ⟨s, t, written⟩ ⟨s', t', written'⟩ events ⟨views, inv⟩ ⟨step, step', same, grown⟩
    obtain ⟨views', moved⟩ := inv.moves step step' same
    refine ⟨views', moved.left, moved.right, moved.world, moved.arenas, moved.perm, ?_⟩
    intro q outside
    dsimp only at grown
    rw [grown, Set.mem_union, not_or] at outside
    exact moved.agree q outside.2 (inv.agree q outside.1)

/-! ## The secure reset -/

/-- An address lies in the block of one chunk. -/
theorem ArenaView.Shape.chunk_unique (shape : a.Shape) {c d : Chunk} (first : c ∈ a.chunks)
    (second : d ∈ a.chunks) {p : Nat} (inside : p ∈ c.extent.bytes)
    (inside' : p ∈ d.extent.bytes) : c = d := by
  have symmetric : Std.Symm fun c d : Chunk => c.extent.Apart d.extent :=
    ⟨fun _ _ apart => apart.symm⟩
  by_contra different
  exact ((List.pairwise_map.mp shape.apart).forall first second different).disjoint inside inside'

/-- **A secure reset of one arena**: the used bytes of each payload are zero
afterwards, and the others are as before. -/
theorem arenaResetSecure_payload (core : BcCore)
    (heap : ArenaHeap platform w (a :: rest) foreign) :
    ∃ w', arenaResetSecure core platform w a.address = some w' ∧
      ∀ c ∈ a.chunks, ∀ p, c.start ≤ p → p < c.stop →
        w'.mem p = if p < c.start + c.used then 0 else w.mem p := by
  have shape := heap.shape a List.mem_cons_self
  obtain ⟨linked, walked⟩ := heap.walked
  obtain ⟨m, secured, erased, zero⟩ := secureChunks_spec core heap.length_lt linked walked
    shape.apart
  obtain ⟨w', reset, _, _, changes⟩ := arenaReset_outcome (heap.payload erased)
  refine ⟨w', by rw [arenaResetSecure, secured]; exact reset, ?_⟩
  intro c inChunks p lower upper
  have inside : p ∈ c.extent.bytes :=
    ⟨((Nat.le_add_right _ _).trans (Nat.le_add_right _ _)).trans lower, upper⟩
  have payload : p ∉ a.headerBytes := by
    rintro ⟨d, inChunks', above, below⟩
    have same := shape.chunk_unique inChunks inChunks' inside
      ((shape.fit d inChunks').mem_extent above below)
    rw [← same] at below
    exact Nat.not_lt_of_le lower below
  rw [changes p payload]
  split
  · next used => exact zero p ⟨c, inChunks, lower, used⟩
  · next unused =>
      refine erased p ?_
      rintro ⟨d, inChunks', above, below⟩
      have same := shape.chunk_unique inChunks inChunks' inside
        ((shape.fit d inChunks').mem_extent_of_used above below)
      rw [← same] at below
      exact unused below

/-- After a secure reset in both worlds every payload has the same bytes in both. -/
def Erased (core : BcCore) (platform : Platform) (w v : World) (arena : Nat) : Prop :=
  ∃ w' v', arenaResetSecure core platform w arena = some w' ∧
    arenaResetSecure core platform v arena = some v' ∧
    ∀ c ∈ arenaChain w.mem arena, ∀ p, chunkMemoryStart w.mem c ≤ p →
      p < chunkMemoryStart w.mem c + chunkCapacity w.mem c → w'.mem p = v'.mem p

/-- The bytes of the payloads behind the used ones. -/
def unusedPayload (m : Memory) (arena : Nat) : Set Nat :=
  {p | ∃ c ∈ arenaChain m arena, chunkMemoryStart m c + chunkUsed m c ≤ p ∧
    p < chunkMemoryStart m c + chunkCapacity m c}

/-- **Exactly when a secure reset erases what clients stored.** Two runs that part at a
reachable state and make the same calls have the same payloads after a secure reset
when, and only when, they have the same bytes behind the used parts before it; and so
they do in every such run in which nothing written since they parted lies there. -/
theorem erased_iff (core : BcCore) (platform : Platform) (foreign : List Extent) {p : ArenaPair}
    (reachable : (pairSystem core platform foreign).Reachable p) {arena : Nat}
    (live : p.left.Live arena) :
    (Erased core platform p.left.world p.right.world arena ↔
      ∀ q ∈ unusedPayload p.left.world.mem arena,
        p.left.world.mem q = p.right.world.mem q) ∧
    ((∀ q ∈ unusedPayload p.left.world.mem arena, q ∉ p.written) →
      Erased core platform p.left.world p.right.world arena) := by
  obtain ⟨views, inv⟩ := PairInv.reachable reachable
  obtain ⟨h, member, rfl⟩ := live
  obtain ⟨a, rest, rfl, split, first, _⟩ := ArenaInv.split inv.left inv.perm member
  have second := inv.right.perm split.symm
  obtain ⟨w', reset, after⟩ := arenaResetSecure_payload core first
  obtain ⟨v', reset', after'⟩ := arenaResetSecure_payload core second
  have shape := first.shape a List.mem_cons_self
  have chain : arenaChain p.left.world.mem a.client.address = a.chunks.map Chunk.header :=
    first.arenaChain_eq List.mem_cons_self
  have fields : ∀ c ∈ a.chunks, chunkMemoryStart p.left.world.mem c.header = c.start ∧
      chunkUsed p.left.world.mem c.header = c.used ∧
      c.start + chunkCapacity p.left.world.mem c.header = c.stop := by
    intro c inChunks
    have here := (first.here a List.mem_cons_self).chunks c inChunks
    refine ⟨here.memoryStart, here.used, ?_⟩
    rw [here.capacity]
    exact (shape.fit c inChunks).start_add_capacity
  have exact_iff : Erased core platform p.left.world p.right.world a.client.address ↔
      ∀ q ∈ unusedPayload p.left.world.mem a.client.address,
        p.left.world.mem q = p.right.world.mem q := by
    constructor
    · rintro ⟨w, v, same, same', erased⟩ q ⟨k, inChain, lower, upper⟩
      obtain rfl := Option.some.inj (reset.symm.trans same)
      obtain rfl := Option.some.inj (reset'.symm.trans same')
      have equal := erased k inChain q ((Nat.le_add_right _ _).trans lower) upper
      rw [chain] at inChain
      obtain ⟨c, inChunks, rfl⟩ := List.mem_map.mp inChain
      obtain ⟨start, used, stop⟩ := fields c inChunks
      rw [start, used] at lower
      rw [start, stop] at upper
      have above : c.start ≤ q := (Nat.le_add_right _ _).trans lower
      rw [after c inChunks q above upper, after' c inChunks q above upper,
        if_neg (Nat.not_lt_of_le lower), if_neg (Nat.not_lt_of_le lower)] at equal
      exact equal
    · intro agree
      refine ⟨w', v', reset, reset', ?_⟩
      intro k inChain q lower upper
      rw [chain] at inChain
      obtain ⟨c, inChunks, rfl⟩ := List.mem_map.mp inChain
      obtain ⟨start, used, stop⟩ := fields c inChunks
      rw [start] at lower
      rw [start, stop] at upper
      rw [after c inChunks q lower upper, after' c inChunks q lower upper]
      split
      · rfl
      · next unused =>
          refine agree q ⟨c.header, ?_, ?_, ?_⟩
          · rw [chain]
            exact List.mem_map_of_mem inChunks
          · rw [start, used]
            exact Nat.le_of_not_lt unused
          · rwa [start, stop]
  exact ⟨exact_iff, fun unwritten => exact_iff.mpr fun q unused =>
    inv.agree q (unwritten q unused)⟩

/-! ## A byte that survives -/

/-- The filled arena after a plain reset. -/
def resetArena (byte : UInt8) : ArenaState :=
  (filledArena byte).after
    ((arenaReset (filledArena byte).world 131072).getD (filledArena byte).world)
    (changeArena (filledArena byte).arenas 131072 fun _ => [])

theorem resetArena_next (byte : UInt8) :
    (arenaSystem BcCore.reference Platform.x86 []).Next (filledArena byte)
      ⟨.reset 131072, ⟨true, NULL⟩⟩ (resetArena byte) := by
  obtain ⟨views, heap, perm⟩ := ArenaInv.reachable (filledArena_reachable byte)
  obtain ⟨h, member, address⟩ := filledArena_live byte
  obtain ⟨a, rest, rfl, _, first, _⟩ := ArenaInv.split heap perm member
  obtain ⟨w', reset, _⟩ := arenaReset_outcome first
  have same : arenaReset (filledArena byte).world 131072 = some w' := by
    rw [← address]
    exact reset
  refine ⟨filledArena_live byte, ?_⟩
  rw [ArenaState.perform, same, resetArena, same]
  rfl

/-- Two runs that store different bytes in the same place, and reset the arena. -/
def survivingPair : ArenaPair where
  left := resetArena 170
  right := resetArena 187
  written := (∅ ∪ touched BcCore.reference twoPageAllocation
      ⟨.write 135168 [170], ⟨true, NULL⟩⟩) ∪
    touched BcCore.reference (filledArena 170) ⟨.reset 131072, ⟨true, NULL⟩⟩

/-- The two runs before the reset. -/
def filledPair : ArenaPair where
  left := filledArena 170
  right := filledArena 187
  written := ∅ ∪ touched BcCore.reference twoPageAllocation ⟨.write 135168 [170], ⟨true, NULL⟩⟩

theorem filledPair_reachable :
    (pairSystem BcCore.reference Platform.x86 []).Reachable filledPair := by
  have parted : (pairSystem BcCore.reference Platform.x86 []).Reachable
      ⟨twoPageAllocation, twoPageAllocation, ∅⟩ :=
    System.Reachable.start ⟨twoPageAllocation_reachable, rfl, rfl⟩
  exact parted.next
    (show (pairSystem BcCore.reference Platform.x86 []).Next _
        (⟨.write 135168 [170], ⟨true, NULL⟩⟩, ⟨.write 135168 [187], ⟨true, NULL⟩⟩)
        filledPair from
      ⟨filledArena_next 170, filledArena_next 187, ⟨rfl, rfl⟩, rfl⟩)

theorem survivingPair_reachable :
    (pairSystem BcCore.reference Platform.x86 []).Reachable survivingPair :=
  filledPair_reachable.next
    (show (pairSystem BcCore.reference Platform.x86 []).Next _
        (⟨.reset 131072, ⟨true, NULL⟩⟩, ⟨.reset 131072, ⟨true, NULL⟩⟩) survivingPair from
      ⟨resetArena_next 170, resetArena_next 187, rfl, rfl⟩)

theorem resetArena_live (byte : UInt8) : (resetArena byte).Live 131072 :=
  ⟨⟨131072, []⟩, show _ ∈ changeArena twoPageAllocation.arenas 131072 fun _ => [] by decide, rfl⟩

/-- What is left behind the used part decides for the two runs. It differs after the
plain reset; before it, nothing was written there, and the secure reset erases. -/
theorem erased_iff_filledPair :
    (Erased BcCore.reference Platform.x86 survivingPair.left.world survivingPair.right.world
        131072 ↔
      ∀ q ∈ unusedPayload survivingPair.left.world.mem 131072,
        survivingPair.left.world.mem q = survivingPair.right.world.mem q) ∧
    ((∀ q ∈ unusedPayload survivingPair.left.world.mem 131072, q ∉ survivingPair.written) →
      Erased BcCore.reference Platform.x86 survivingPair.left.world survivingPair.right.world
        131072) ∧
    Erased BcCore.reference Platform.x86 filledPair.left.world filledPair.right.world 131072 ∧
      filledPair.left.world.mem 135168 ≠ filledPair.right.world.mem 135168 := by
  have surviving := erased_iff BcCore.reference Platform.x86 [] survivingPair_reachable
    (resetArena_live 170)
  have filled := erased_iff BcCore.reference Platform.x86 [] filledPair_reachable
    (filledArena_live 170)
  have chain : arenaChain (filledArena 170).world.mem 131072 = [131136] := by decide +kernel
  have used : chunkMemoryStart (filledArena 170).world.mem 131136 +
      chunkUsed (filledArena 170).world.mem 131136 = 131200 + 8000 := by decide +kernel
  refine ⟨surviving.1, surviving.2, filled.2 ?_, by decide⟩
  -- the byte that was written is in the used part
  rintro q ⟨c, member, lower, _⟩ (none | ⟨_, upper⟩)
  · exact none
  · obtain rfl := List.mem_singleton.mp (chain ▸ member)
    rw [show filledPair.left = filledArena 170 from rfl, used] at lower
    exact absurd (lt_of_le_of_lt lower upper) (by decide)

/-- **A byte survives a secure reset** when a plain reset came before it. -/
theorem byte_survives :
    (pairSystem BcCore.reference Platform.x86 []).Reachable survivingPair ∧
      survivingPair.left.Live 131072 ∧
      ¬ Erased BcCore.reference Platform.x86 survivingPair.left.world survivingPair.right.world
        131072 := by
  refine ⟨survivingPair_reachable, resetArena_live 170, ?_⟩
  rintro ⟨w', v', reset, reset', erased⟩
  have left : (arenaResetSecure BcCore.reference Platform.x86 (resetArena 170).world 131072).map
      (fun w => w.mem 135168) = some 170 := by decide
  have right : (arenaResetSecure BcCore.reference Platform.x86 (resetArena 187).world 131072).map
      (fun w => w.mem 135168) = some 187 := by decide
  rw [show arenaResetSecure BcCore.reference Platform.x86 (resetArena 170).world 131072 = some w'
    from reset, Option.map_some, Option.some.injEq] at left
  rw [show arenaResetSecure BcCore.reference Platform.x86 (resetArena 187).world 131072 = some v'
    from reset', Option.map_some, Option.some.injEq] at right
  have equal := erased 131136 (by decide) 135168 (by decide) (by decide)
  rw [left, right] at equal
  revert equal
  decide

end BcAllocators
