import BcAllocators.Lib.Transitions
import BcAllocators.Arena.Operations

/-!
# Clients of the arenas

A client creates a context and then calls the functions of the arenas, in any
order and for any number of arenas, and writes inside its allocations. The
kernel answers each call as it likes. The state of such a run is the world, the
live arenas with their allocations since the last reset, and the totals that the
context had in the course of the run; only the world is seen by the code.

What a call can do to the arenas is said once (`ArenaMove`), and each allowed
call is such a move from one heap of arenas to another (`ArenaInv.moves`). The
invariants of a run are derived from that.
-/

set_option autoImplicit false

namespace BcAllocators

open Machine

/-! ## Runs -/

/-- An arena that the client may use, with its allocations since the last reset. -/
structure LiveArena where
  address : Nat
  allocs : List Alloc
deriving DecidableEq, Repr

/-- The world, and what the client knows of its own history. -/
structure ArenaState where
  world : World
  arenas : List LiveArena
  /-- The mapped bytes that the context counted at each point, latest first. -/
  totals : List Nat

inductive ArenaCall where
  | create (capacity : Nat) (answer : Option Nat)
  | createGrowable (initialChunkSize maxChunkSize : Nat) (answer : Option Nat)
  | allocate (arena size alignment : Nat) (answer : Option Nat)
  | copyString (arena source : Nat) (answer : Option Nat)
  | reset (arena : Nat)
  | resetSecure (arena : Nat)
  | releasePages (arena : Nat)
  | destroy (arena : Nat)
  | write (address : Nat) (bytes : List UInt8)
deriving DecidableEq, Repr

/-- A call with what it returned. -/
structure ArenaEvent where
  call : ArenaCall
  result : PtrResult
deriving DecidableEq, Repr

/-- Change the allocations of one arena. -/
def changeArena (arenas : List LiveArena) (address : Nat) (change : List Alloc → List Alloc) :
    List LiveArena :=
  arenas.map fun h => if h.address = address then { h with allocs := change h.allocs } else h

/-- The arenas without one. -/
def dropArena (arenas : List LiveArena) (address : Nat) : List LiveArena :=
  arenas.filter fun h => h.address ≠ address

namespace ArenaState

variable (core : BcCore) (platform : Platform) (s : ArenaState)

/-- The client may use the arena. -/
def Live (arena : Nat) : Prop := ∃ h ∈ s.arenas, h.address = arena

/-- The calls of a correct client: live arenas, arguments that are words, and
writes inside allocations. -/
def Allows : ArenaCall → Prop
  | .create capacity _ => capacity < 2 ^ 64
  | .createGrowable initialChunkSize maxChunkSize _ =>
      initialChunkSize < 2 ^ 64 ∧ maxChunkSize < 2 ^ 64
  | .allocate arena size alignment _ => s.Live arena ∧ size < 2 ^ 64 ∧ alignment < 2 ^ 64
  | .copyString arena _ _ => s.Live arena
  | .reset arena => s.Live arena
  | .resetSecure arena => s.Live arena
  | .releasePages arena => s.Live arena
  | .destroy arena => s.Live arena
  | .write address bytes => ∃ h ∈ s.arenas, ∃ x ∈ h.allocs,
      x.ptr ≤ address ∧ address + bytes.length ≤ x.extent.stop

instance : DecidablePred s.Allows
  | .create capacity _ => inferInstanceAs (Decidable (capacity < 2 ^ 64))
  | .createGrowable initialChunkSize maxChunkSize _ =>
      inferInstanceAs (Decidable (initialChunkSize < 2 ^ 64 ∧ maxChunkSize < 2 ^ 64))
  | .allocate arena size alignment _ => inferInstanceAs (Decidable
      ((∃ h ∈ s.arenas, h.address = arena) ∧ size < 2 ^ 64 ∧ alignment < 2 ^ 64))
  | .copyString arena _ _ | .reset arena | .resetSecure arena | .releasePages arena
  | .destroy arena => inferInstanceAs (Decidable (∃ h ∈ s.arenas, h.address = arena))
  | .write address bytes => inferInstanceAs (Decidable (∃ h ∈ s.arenas, ∃ x ∈ h.allocs,
      x.ptr ≤ address ∧ address + bytes.length ≤ x.extent.stop))

/-- The state with another world and other arenas. -/
def after (w : World) (arenas : List LiveArena) : ArenaState :=
  { world := w, arenas := arenas, totals := w.ctx.totalMappedBytes :: s.totals }

/-- The state after a creation. -/
def created (result : World × PtrResult) : ArenaState × PtrResult :=
  (s.after result.1 (if result.2.ok then ⟨result.2.out, []⟩ :: s.arenas else s.arenas), result.2)

/-- The state after an allocating call. -/
def allocated (arena size alignment : Nat) (result : World × PtrResult) :
    ArenaState × PtrResult :=
  (s.after result.1 (if result.2.ok then
    changeArena s.arenas arena (⟨result.2.out, size, alignment⟩ :: ·) else s.arenas), result.2)

/-- The effect of a call. A call whose loop does not end has none. -/
def perform : ArenaCall → Option (ArenaState × PtrResult)
  | .create capacity answer => some (s.created (arenaCreate core platform s.world capacity answer))
  | .createGrowable initialChunkSize maxChunkSize answer =>
      some (s.created
        (arenaCreateGrowable core platform s.world initialChunkSize maxChunkSize answer))
  | .allocate arena size alignment answer =>
      some (s.allocated arena size alignment
        (arenaAllocate core platform s.world arena size alignment answer))
  | .copyString arena source answer =>
      some (s.allocated arena (wadd (core.length s.world.mem source) 1) 1
        (arenaCopyString core platform s.world arena source answer))
  | .reset arena => (arenaReset s.world arena).map fun w =>
      (s.after w (changeArena s.arenas arena fun _ => []), ⟨true, NULL⟩)
  | .resetSecure arena => (arenaResetSecure core platform s.world arena).map fun w =>
      (s.after w (changeArena s.arenas arena fun _ => []), ⟨true, NULL⟩)
  | .releasePages arena => (arenaReleasePages platform s.world arena).map fun w =>
      (s.after w s.arenas, ⟨true, NULL⟩)
  | .destroy arena => (arenaDestroy s.world arena).map fun w =>
      (s.after w (dropArena s.arenas arena), ⟨true, NULL⟩)
  | .write address bytes =>
      some (s.after { s.world with mem := storeBytes s.world.mem address bytes } s.arenas,
        ⟨true, NULL⟩)

/-- A call as an event, and the state that it leads to. A call whose loop does not end
leads nowhere. -/
def event (call : ArenaCall) : ArenaEvent × ArenaState :=
  match s.perform core platform call with
  | some (s', result) => (⟨call, result⟩, s')
  | none => (⟨call, .failed⟩, s)

variable {core platform s} {arena : Nat} {s' : ArenaState} {result : PtrResult}

/-- A call whose loop ends changes the world as the loop does. -/
theorem perform_reset (performed : s.perform core platform (.reset arena) = some (s', result)) :
    ∃ w, arenaReset s.world arena = some w ∧
      s' = s.after w (changeArena s.arenas arena fun _ => []) := by
  rw [perform] at performed
  obtain ⟨w, returns, same⟩ := Option.map_eq_some_iff.mp performed
  exact ⟨w, returns, (congrArg Prod.fst same).symm⟩

theorem perform_resetSecure
    (performed : s.perform core platform (.resetSecure arena) = some (s', result)) :
    ∃ w, arenaResetSecure core platform s.world arena = some w ∧
      s' = s.after w (changeArena s.arenas arena fun _ => []) := by
  rw [perform] at performed
  obtain ⟨w, returns, same⟩ := Option.map_eq_some_iff.mp performed
  exact ⟨w, returns, (congrArg Prod.fst same).symm⟩

theorem perform_releasePages
    (performed : s.perform core platform (.releasePages arena) = some (s', result)) :
    ∃ w, arenaReleasePages platform s.world arena = some w ∧ s' = s.after w s.arenas := by
  rw [perform] at performed
  obtain ⟨w, returns, same⟩ := Option.map_eq_some_iff.mp performed
  exact ⟨w, returns, (congrArg Prod.fst same).symm⟩

theorem perform_destroy
    (performed : s.perform core platform (.destroy arena) = some (s', result)) :
    ∃ w, arenaDestroy s.world arena = some w ∧ s' = s.after w (dropArena s.arenas arena) := by
  rw [perform] at performed
  obtain ⟨w, returns, same⟩ := Option.map_eq_some_iff.mp performed
  exact ⟨w, returns, (congrArg Prod.fst same).symm⟩

end ArenaState

/-- A kernel that has served no call for the context yet, next to what is mapped
by others. -/
def Kernel.fresh (foreign : List Extent) : Kernel := ⟨foreign, [], []⟩

/-- Correct clients of the arenas of a fresh context. -/
def arenaSystem (core : BcCore) (platform : Platform) (foreign : List Extent) :
    System ArenaState ArenaEvent where
  Start s := ∃ config m answers,
    ContextConfig.Word config ∧
    contextCreate core platform config (Kernel.fresh foreign) m answers =
      (s.world.kernel, s.world.mem, some s.world.ctx) ∧
    s.arenas = [] ∧ s.totals = [s.world.ctx.totalMappedBytes]
  Next s event s' :=
    s.Allows event.call ∧ s.perform core platform event.call = some (s', event.result)

/-! ## Moves -/

variable {core : BcCore} {platform : Platform} {foreign : List Extent}
variable {s s' : ArenaState} {w w' : World} {a : ArenaView} {views views' rest : List ArenaView}

/-- What a call can do to the arenas of a context and to its tally. -/
inductive ArenaMove (w : World) (views : List ArenaView) (w' : World) : List ArenaView → Prop where
  | stay (context : w'.ctx = w.ctx) : ArenaMove w views w' views
  | create {block mmapSize initialChunkSize maxChunkSize : Nat} {growable : Bool}
      (update : ArenaUpdate (ArenaTally.create mmapSize) w.ctx w'.ctx) :
      ArenaMove w views w'
        (ArenaView.fresh block mmapSize initialChunkSize maxChunkSize growable :: views)
  | serve {a : ArenaView} {rest : List ArenaView} {x : Alloc} (split : views.Perm (a :: rest))
      (context : w'.ctx = w.ctx) : ArenaMove w views w' (a.serve x :: rest)
  | grow {a : ArenaView} {rest : List ArenaView} {block mmapSize : Nat}
      (split : views.Perm (a :: rest))
      (update : ArenaUpdate (ArenaTally.charge mmapSize) w.ctx w'.ctx) :
      ArenaMove w views w' (a.extend block mmapSize :: rest)
  | growServe {a : ArenaView} {rest : List ArenaView} {x : Alloc} {block mmapSize : Nat}
      (split : views.Perm (a :: rest))
      (update : ArenaUpdate (ArenaTally.charge mmapSize) w.ctx w'.ctx) :
      ArenaMove w views w' ((a.extend block mmapSize).serve x :: rest)
  | reset {a : ArenaView} {rest : List ArenaView} (split : views.Perm (a :: rest))
      (update : ArenaUpdate (ArenaTally.creditAll (a.grown.map Chunk.mmapSize)) w.ctx w'.ctx) :
      ArenaMove w views w' (a.reset :: rest)
  | destroy {a : ArenaView} {rest : List ArenaView} (split : views.Perm (a :: rest))
      (update : ArenaUpdate (ArenaTally.destroy a.first.mmapSize ∘
        ArenaTally.creditAll (a.grown.map Chunk.mmapSize)) w.ctx w'.ctx) :
      ArenaMove w views w' rest

/-- The arena as the client knows it. -/
def ArenaView.client (a : ArenaView) : LiveArena := ⟨a.address, a.allocs⟩

/-- **The invariant of a correct client**: the live arenas are those of a heap. -/
def ArenaInv (platform : Platform) (foreign : List Extent) (s : ArenaState) : Prop :=
  ∃ views, ArenaHeap platform s.world views foreign ∧ s.arenas.Perm (views.map ArenaView.client)

/-! ## Live arenas -/

/-- Different arenas have different addresses. -/
theorem ArenaHeap.address_ne (heap : ArenaHeap platform w (a :: rest) foreign) :
    ∀ b ∈ rest, b.address ≠ a.address := by
  intro b member same
  have first := heap.blockFit List.mem_cons_self a.first_mem
  have second := heap.blockFit (List.mem_cons_of_mem a member) b.first_mem
  have apart := heap.apart_rest a.first.extent (List.mem_map_of_mem a.first_mem) b.first.extent
    (List.mem_flatMap.mpr ⟨b, member, List.mem_map_of_mem b.first_mem⟩)
  have posA := first.size_pos
  have posB := second.size_pos
  simp only [ArenaView.address] at same
  simp only [Extent.Apart, Extent.stop, Chunk.extent] at *
  omega

/-- A client does not see a new chunk. -/
theorem ArenaView.extend_client (a : ArenaView) (block mmapSize : Nat) :
    (a.extend block mmapSize).client = a.client := by
  rw [ArenaView.client, ArenaView.extend_address]
  rfl

theorem ArenaView.serve_client (a : ArenaView) (x : Alloc) :
    (a.serve x).client = ⟨a.address, x :: a.allocs⟩ := by
  rw [ArenaView.client, (ArenaView.serve_first a x).1]
  rfl

theorem changeArena_perm {arenas : List LiveArena} {change : List Alloc → List Alloc}
    (perm : arenas.Perm (a.client :: rest.map ArenaView.client))
    (others : ∀ b ∈ rest, b.address ≠ a.address) :
    (changeArena arenas a.address change).Perm
      (⟨a.address, change a.allocs⟩ :: rest.map ArenaView.client) := by
  refine (perm.map _).trans ?_
  rw [List.map_cons, List.map_map, if_pos (show a.client.address = a.address from rfl)]
  refine List.Perm.of_eq (congrArg _ (List.map_congr_left fun b member => ?_))
  exact if_neg (others b member)

theorem dropArena_perm {arenas : List LiveArena}
    (perm : arenas.Perm (a.client :: rest.map ArenaView.client))
    (others : ∀ b ∈ rest, b.address ≠ a.address) :
    (dropArena arenas a.address).Perm (rest.map ArenaView.client) := by
  refine (perm.filter _).trans ?_
  rw [List.filter_cons_of_neg (by simp [ArenaView.client])]
  refine List.Perm.of_eq (List.filter_eq_self.mpr fun h member => ?_)
  obtain ⟨b, inRest, rfl⟩ := List.mem_map.mp member
  exact decide_eq_true (others b inRest)

/-- A member of a list, and the others. -/
theorem exists_split {α : Type} {l : List α} {x : α} (member : x ∈ l) :
    ∃ rest, l.Perm (x :: rest) := by
  obtain ⟨front, back, rfl⟩ := List.mem_iff_append.mp member
  exact ⟨front ++ back, List.perm_middle⟩

/-- A live arena is the first of the heap, up to order. -/
theorem ArenaInv.split (heap : ArenaHeap platform s.world views foreign)
    (perm : s.arenas.Perm (views.map ArenaView.client)) {h : LiveArena} (member : h ∈ s.arenas) :
    ∃ a rest, a.client = h ∧ views.Perm (a :: rest) ∧
      ArenaHeap platform s.world (a :: rest) foreign ∧
      s.arenas.Perm (a.client :: rest.map ArenaView.client) := by
  obtain ⟨a, inViews, same⟩ := List.mem_map.mp (perm.mem_iff.mp member)
  obtain ⟨rest, split⟩ := exists_split inViews
  exact ⟨a, rest, same, split, heap.perm split.symm, perm.trans (split.map _)⟩

/-! ## Every call is a move -/

/-- What an allowed call leads to. -/
structure Moved (core : BcCore) (platform : Platform) (foreign : List Extent) (s : ArenaState)
    (views : List ArenaView) (call : ArenaCall) (s' : ArenaState) (views' : List ArenaView) :
    Prop where
  performed : ∃ result, s.perform core platform call = some (s', result)
  heap : ArenaHeap platform s'.world views' foreign
  clients : s'.arenas.Perm (views'.map ArenaView.client)
  move : ArenaMove s.world views s'.world views'
  totals : s'.totals = s'.world.ctx.totalMappedBytes :: s.totals

section moves

variable (core : BcCore) (heap : ArenaHeap platform s.world views foreign)
  (perm : s.arenas.Perm (views.map ArenaView.client))

include heap perm

/-- A creation, once its outcome is known. -/
theorem moved_create {capacity initialChunkSize maxChunkSize : Nat} {growable : Bool}
    {call : ArenaCall} {result : World × PtrResult}
    (performs : s.perform core platform call = some (s.created result))
    (outcome : ArenaCreateOutcome platform s.world views foreign capacity initialChunkSize
      maxChunkSize growable result) :
    ∃ s' views', Moved core platform foreign s views call s' views' := by
  cases outcome with
  | refused => exact ⟨_, views, ⟨_, performs⟩, heap, perm, .stay rfl, rfl⟩
  | created after update _ _ =>
      exact ⟨_, _, ⟨_, performs⟩, after, perm.cons _, .create update, rfl⟩

/-- An allocating call, once its outcome is known. -/
theorem moved_allocate {size alignment : Nat} {answer : Option Nat} {writes : Nat → Set Nat}
    {call : ArenaCall} {result : World × PtrResult} (split : views.Perm (a :: rest))
    (performs : s.perform core platform call =
      some (s.allocated a.address size alignment result))
    (outcome : ArenaAllocateOutcome core platform s.world a rest foreign size alignment answer
      writes result) :
    ∃ s' views', Moved core platform foreign s views call s' views' := by
  have clients := perm.trans (split.map ArenaView.client)
  have others := (heap.perm split.symm).address_ne
  cases outcome with
  | refused idle => exact ⟨_, views, ⟨_, performs⟩, heap, perm, .stay rfl, rfl⟩
  | served after context _ _ =>
      refine ⟨_, _, ⟨_, performs⟩, after, ?_, .serve split context, rfl⟩
      rw [List.map_cons, ArenaView.serve_client]
      exact changeArena_perm clients others
  | grown after update _ _ =>
      refine ⟨_, _, ⟨_, performs⟩, after, ?_, .growServe split update, rfl⟩
      rw [List.map_cons, ArenaView.serve_client, ArenaView.extend_address]
      exact changeArena_perm clients others
  | wasted after update _ _ =>
      refine ⟨_, _, ⟨_, performs⟩, after, ?_, .grow split update, rfl⟩
      rw [List.map_cons, ArenaView.extend_client]
      exact clients

/-- A reset, once its outcome is known. -/
theorem moved_reset {call : ArenaCall} (split : views.Perm (a :: rest))
    (performs : s.perform core platform call =
      some (s.after w' (changeArena s.arenas a.address fun _ => []), ⟨true, NULL⟩))
    (after : ArenaHeap platform w' (a.reset :: rest) foreign)
    (update : ArenaUpdate (ArenaTally.creditAll (a.grown.map Chunk.mmapSize)) s.world.ctx
      w'.ctx) :
    ∃ s' views', Moved core platform foreign s views call s' views' := by
  have clients := perm.trans (split.map ArenaView.client)
  have others := (heap.perm split.symm).address_ne
  have cleared : (changeArena s.arenas a.address fun _ => []).Perm
      ((a.reset :: rest).map ArenaView.client) := changeArena_perm clients others
  exact ⟨_, _, ⟨_, performs⟩, after, cleared, .reset split update, rfl⟩

/-- A write inside an allocation. -/
theorem moved_write {address : Nat} {bytes : List UInt8}
    (allowed : s.Allows (.write address bytes)) :
    Moved core platform foreign s views (.write address bytes)
      (s.after { s.world with mem := storeBytes s.world.mem address bytes } s.arenas) views := by
  obtain ⟨h, member, x, inAllocs, lower, upper⟩ := allowed
  obtain ⟨a, rest, rfl, split, first, _⟩ := ArenaInv.split heap perm member
  have changes : ChangesOnly x.extent.bytes s.world.mem
      (storeBytes s.world.mem address bytes) :=
    (changesOnly_storeBytes s.world.mem address bytes).mono fun b inside =>
      Extent.mem_bytes.mpr ⟨lower.trans inside.1, lt_of_lt_of_le inside.2 upper⟩
  exact ⟨⟨_, rfl⟩, (first.write inAllocs changes).perm split, perm, .stay rfl, rfl⟩

/-- **Every allowed call returns, and is a move.** -/
theorem ArenaInv.moves {call : ArenaCall} (allowed : s.Allows call) :
    ∃ s' views', Moved core platform foreign s views call s' views' := by
  cases call with
  | create capacity answer =>
      exact moved_create core heap perm rfl
        (arenaMakeFirst_outcome core heap false answer allowed ⟨allowed, allowed⟩)
  | createGrowable initialChunkSize maxChunkSize answer =>
      exact moved_create core heap perm rfl (arenaCreateGrowable_outcome core heap answer allowed)
  | allocate arena size alignment answer =>
      obtain ⟨⟨h, member, rfl⟩, sizeWord, alignmentWord⟩ := allowed
      obtain ⟨a, rest, rfl, split, first, _⟩ := ArenaInv.split heap perm member
      exact moved_allocate core heap perm split rfl
        (arenaAllocate_outcome core first sizeWord alignmentWord answer)
  | copyString arena source answer =>
      obtain ⟨h, member, rfl⟩ := allowed
      obtain ⟨a, rest, rfl, split, first, _⟩ := ArenaInv.split heap perm member
      exact moved_allocate core heap perm split rfl
        (arenaCopyString_outcome core first source answer)
  | reset arena =>
      obtain ⟨h, member, rfl⟩ := allowed
      obtain ⟨a, rest, rfl, split, first, _⟩ := ArenaInv.split heap perm member
      obtain ⟨w', result, after, update, _⟩ := arenaReset_outcome first
      refine moved_reset core heap perm split ?_ after update
      rw [ArenaState.perform]
      exact congrArg (Option.map _) result
  | resetSecure arena =>
      obtain ⟨h, member, rfl⟩ := allowed
      obtain ⟨a, rest, rfl, split, first, _⟩ := ArenaInv.split heap perm member
      obtain ⟨w', result, after, update, _⟩ := arenaResetSecure_outcome core first
      refine moved_reset core heap perm split ?_ after update
      rw [ArenaState.perform]
      exact congrArg (Option.map _) result
  | releasePages arena =>
      obtain ⟨h, member, rfl⟩ := allowed
      obtain ⟨a, rest, rfl, split, first, _⟩ := ArenaInv.split heap perm member
      have performs : s.perform core platform (.releasePages a.client.address) =
          some (s.after s.world s.arenas, ⟨true, NULL⟩) := by
        rw [ArenaState.perform]
        exact congrArg (Option.map _) (arenaReleasePages_outcome first)
      exact ⟨_, views, ⟨_, performs⟩, heap, perm, .stay rfl, rfl⟩
  | destroy arena =>
      obtain ⟨h, member, rfl⟩ := allowed
      obtain ⟨a, rest, rfl, split, first, clients⟩ := ArenaInv.split heap perm member
      obtain ⟨w', result, after, update, _⟩ := arenaDestroy_outcome first
      have performs : s.perform core platform (.destroy a.client.address) =
          some (s.after w' (dropArena s.arenas a.address), ⟨true, NULL⟩) := by
        rw [ArenaState.perform]
        exact congrArg (Option.map _) result
      exact ⟨_, rest, ⟨_, performs⟩, after, dropArena_perm clients first.address_ne,
        .destroy split update, rfl⟩
  | write address bytes =>
      exact ⟨_, views, moved_write core heap perm allowed⟩

end moves

/-! ## Every run -/

/-- **A fresh context has no arenas.** -/
theorem Created.arenaHeap {config : Option ContextConfig} {m : Memory}
    (created : Created core platform config (Kernel.fresh foreign) m w.kernel w.mem w.ctx) :
    ArenaHeap platform w [] foreign := by
  have context := created.context
  have kernel := created.kernel_eq
  have own : w.ctx.ownBlocks = [⟨w.ctx.region.pageClassBase, pageClassMapSize platform config⟩,
      ⟨w.ctx.region.base, regionSize platform config⟩,
      ⟨w.ctx.address, contextMapSize platform⟩] := by
    rw [context]
    rfl
  have cache : w.ctx.arenaCache.blocks = [] := by
    rw [context]
    exact ArenaCache.blocks_empty
  obtain ⟨_, _, _, stop, _⟩ := created.address
  obtain ⟨_, _, _, _, regionApart⟩ := created.region
  obtain ⟨_, _, _, _, pageClassApart⟩ := created.pageClass
  constructor
  · rw [context]
    rfl
  · exact lt_of_le_of_lt (Nat.le_add_right _ _) stop
  · constructor
    · rw [kernel, own, cache]
      exact .refl _
    · rw [kernel, own, cache]
      exact .refl _
    · rw [own, cache]
      refine List.pairwise_cons.mpr ⟨fun e member => pageClassApart e ?_, ?_⟩
      · exact List.mem_append_left (Kernel.fresh foreign).mapped member
      · refine List.pairwise_cons.mpr ⟨fun e member => regionApart e ?_, ?_⟩
        · exact List.mem_append_left (Kernel.fresh foreign).mapped member
        · exact List.pairwise_singleton _ _
    · rw [cache]
      intro e member
      cases member
  · intro a member
    cases member
  · intro a member
    cases member
  · intro a member
    cases member

theorem ArenaInv.start (start : (arenaSystem core platform foreign).Start s) :
    ArenaInv platform foreign s := by
  obtain ⟨config, m, answers, word, created, arenas, _⟩ := start
  exact ⟨[], (contextCreate_some word created).arenaHeap, List.Perm.of_eq arenas⟩

/-- **A step of the system is a move.** -/
theorem ArenaInv.step_moves {event : ArenaEvent} (heap : ArenaHeap platform s.world views foreign)
    (perm : s.arenas.Perm (views.map ArenaView.client))
    (step : (arenaSystem core platform foreign).Next s event s') :
    ∃ views', Moved core platform foreign s views event.call s' views' := by
  obtain ⟨allowed, performed⟩ := step
  obtain ⟨t, views', moved⟩ := ArenaInv.moves core heap perm allowed
  obtain ⟨result, same⟩ := moved.performed
  obtain rfl : t = s' := congrArg Prod.fst (Option.some.inj (same.symm.trans performed))
  exact ⟨views', moved⟩

theorem ArenaInv.step {event : ArenaEvent} (inv : ArenaInv platform foreign s)
    (step : (arenaSystem core platform foreign).Next s event s') :
    ArenaInv platform foreign s' := by
  obtain ⟨views, heap, perm⟩ := inv
  obtain ⟨views', moved⟩ := ArenaInv.step_moves heap perm step
  exact ⟨views', moved.heap, moved.clients⟩

/-- **The invariant holds in every reachable state.** -/
theorem ArenaInv.reachable (reachable : (arenaSystem core platform foreign).Reachable s) :
    ArenaInv platform foreign s :=
  System.Reachable.invariant (fun _ start => ArenaInv.start start)
    (fun inv step => inv.step step) reachable

/-- **Every allowed call returns** in a reachable state. -/
theorem arena_call_returns (reachable : (arenaSystem core platform foreign).Reachable s)
    {call : ArenaCall} (allowed : s.Allows call) :
    ∃ s' result, s.perform core platform call = some (s', result) := by
  obtain ⟨views, heap, perm⟩ := ArenaInv.reachable reachable
  obtain ⟨s', views', moved⟩ := ArenaInv.moves core heap perm allowed
  obtain ⟨result, performed⟩ := moved.performed
  exact ⟨s', result, performed⟩

/-- An allowed call is a step. -/
theorem arena_event_next (reachable : (arenaSystem core platform foreign).Reachable s)
    {call : ArenaCall} (allowed : s.Allows call) :
    (arenaSystem core platform foreign).Next s (s.event core platform call).1
      (s.event core platform call).2 := by
  obtain ⟨s', result, performed⟩ := arena_call_returns reachable allowed
  have event : s.event core platform call = (⟨call, result⟩, s') := by
    rw [ArenaState.event, performed]
  rw [event]
  exact ⟨allowed, performed⟩

/-- Allowed calls are a run. -/
theorem arenaRun_calls {calls : List ArenaCall}
    (reachable : (arenaSystem core platform foreign).Reachable s)
    (allowed : System.AllowsAll (ArenaState.event core platform) ArenaState.Allows s calls) :
    (arenaSystem core platform foreign).Run s
      (System.performAll (ArenaState.event core platform) s calls).1
      (System.performAll (ArenaState.event core platform) s calls).2 := by
  refine System.Reachable.run_calls ?_ reachable allowed
  exact fun _ _ here allows => arena_event_next here allows

/-! ## Chains in memory -/

/-- The chunks of an arena, as the code walks them. -/
def arenaChain (m : Memory) (arena : Nat) : List Nat :=
  walk (chunkNext m) chainFuel (arenaFirstChunk m arena)

/-- The block of a chunk: that of the first chunk starts with the arena header. -/
def chunkBlock (m : Memory) (arena chunk : Nat) : Extent :=
  ⟨if chunk = arenaFirstChunk m arena then arena else chunk, chunkMmapSize m chunk⟩

/-- The blocks of the live arenas. -/
def liveBlocks (m : Memory) (arenas : List LiveArena) : List Extent :=
  arenas.flatMap fun h => (arenaChain m h.address).map (chunkBlock m h.address)

/-- **The chain of a represented arena** is that of its chunks. -/
theorem ArenaHeap.arenaChain_eq (heap : ArenaHeap platform w views foreign) (member : a ∈ views) :
    arenaChain w.mem a.address = a.chunks.map Chunk.header := by
  obtain ⟨rest, split⟩ := exists_split member
  have first := heap.perm split.symm
  refine first.walked.1.walk_eq ?_
  rw [List.length_map]
  exact first.length_lt

/-- The block of a chunk of a represented arena. -/
theorem ArenaHeap.chunkBlock_eq (heap : ArenaHeap platform w views foreign) (member : a ∈ views)
    {c : Chunk} (inChunks : c ∈ a.chunks) : chunkBlock w.mem a.address c.header = c.extent := by
  have here := heap.here a member
  have shape := heap.shape a member
  have first : arenaFirstChunk w.mem a.address = a.first.header :=
    ArenaView.firstChunk_of_header here.header
  have nodup := here.chain.nodup
  rw [a.chunks_eq, List.map_cons, List.nodup_cons] at nodup
  rw [chunkBlock, first, (here.chunks c inChunks).mmapSize]
  rw [a.chunks_eq] at inChunks
  rcases List.mem_cons.mp inChunks with rfl | inGrown
  · rw [if_pos rfl]
    rfl
  · have other : c.header ≠ a.first.header := fun same =>
      nodup.1 (same ▸ List.mem_map_of_mem inGrown)
    rw [if_neg other, Chunk.header, shape.grown_lead c inGrown]
    rfl

/-- The blocks of the live arenas are those of the heap. -/
theorem ArenaHeap.liveBlocks_perm (heap : ArenaHeap platform w views foreign)
    {arenas : List LiveArena} (perm : arenas.Perm (views.map ArenaView.client)) :
    (liveBlocks w.mem arenas).Perm (arenaBlocks views) := by
  refine (perm.flatMap_right _).trans (List.Perm.of_eq ?_)
  rw [List.flatMap_map, arenaBlocks]
  refine List.flatMap_congr fun a member => ?_
  rw [show a.client.address = a.address from rfl, heap.arenaChain_eq member, List.map_map]
  exact List.map_congr_left fun c inChunks => heap.chunkBlock_eq member inChunks

/-! ## A small context -/

/-- A tracked context with a leak callback, on a machine where nothing else is
mapped. -/
def smallContext : ArenaState where
  world :=
    { ctx := initContext BcCore.reference Platform.x86 ⟨8192, true, 1, 7⟩ 4096 65536 8192 8192
        4096 4096
      mem := fillBytes (fillBytes (fillBytes (fun _ => 0) 4096 4096 0) 65536 8192 0) 8192 4096 0
      kernel :=
        { mapped := [⟨8192, 4096⟩, ⟨65536, 8192⟩, ⟨4096, 4096⟩]
          mapLog := [⟨8192, 4096⟩, ⟨65536, 8192⟩, ⟨4096, 4096⟩]
          unmapLog := [] } }
  arenas := []
  totals := [0]

theorem smallContext_start : (arenaSystem BcCore.reference Platform.x86 []).Start smallContext := by
  refine ⟨some ⟨8192, true, 1, 7⟩, fun _ => 0, ⟨some 4096, some 65536, some 8192⟩, ?_,
    rfl, rfl, rfl⟩
  rintro c ⟨rfl⟩
  decide

/-- The small context with a growable arena of 100 bytes. -/
def oneArena : ArenaState :=
  (smallContext.created (arenaCreateGrowable BcCore.reference Platform.x86 smallContext.world 100 0
    (some 131072))).1

/-- The arena after an allocation of 24 bytes. -/
def oneAllocation : ArenaState :=
  (oneArena.allocated 131072 24 16 (arenaAllocate BcCore.reference Platform.x86 oneArena.world
    131072 24 16 none)).1

theorem oneArena_reachable : (arenaSystem BcCore.reference Platform.x86 []).Reachable oneArena :=
  (System.Reachable.start smallContext_start).next
    (show (arenaSystem BcCore.reference Platform.x86 []).Next smallContext
        ⟨.createGrowable 100 0 (some 131072), _⟩ oneArena from
      ⟨show (100 : Nat) < 2 ^ 64 ∧ (0 : Nat) < 2 ^ 64 by decide, rfl⟩)

theorem oneAllocation_reachable :
    (arenaSystem BcCore.reference Platform.x86 []).Reachable oneAllocation :=
  oneArena_reachable.next
    (show (arenaSystem BcCore.reference Platform.x86 []).Next oneArena
        ⟨.allocate 131072 24 16 none, _⟩ oneAllocation from
      ⟨⟨⟨⟨131072, []⟩, by decide, rfl⟩, by decide, by decide⟩, rfl⟩)

/-- A growable arena grows once, and a fixed one is made beside it. -/
def growingCalls : List ArenaCall :=
  [.createGrowable 100 0 (some 131072), .allocate 131072 24 16 none,
    .allocate 131072 5000 1 (some 262144), .create 4096 (some 393216),
    .allocate 393216 100 8 none]

/-- The small context after these calls. -/
def twoArenas : ArenaState :=
  (System.performAll (ArenaState.event BcCore.reference Platform.x86) smallContext growingCalls).2

theorem twoArenas_run : (arenaSystem BcCore.reference Platform.x86 []).Run smallContext
    (System.performAll (ArenaState.event BcCore.reference Platform.x86) smallContext
      growingCalls).1 twoArenas := by
  have allowed : System.AllowsAll (ArenaState.event BcCore.reference Platform.x86)
      ArenaState.Allows smallContext growingCalls := by decide +kernel
  exact arenaRun_calls (.start smallContext_start) allowed

theorem twoArenas_reachable : (arenaSystem BcCore.reference Platform.x86 []).Reachable twoArenas :=
  twoArenas_run.reachable smallContext_start

/-- A third arena is made, and the fixed one destroyed. -/
def recyclingCalls : List ArenaCall :=
  growingCalls ++ [.createGrowable 100 0 (some 524288), .destroy 393216]

/-- The small context after these calls. -/
def recycledBlock : ArenaState :=
  (System.performAll (ArenaState.event BcCore.reference Platform.x86) smallContext recyclingCalls).2

theorem recycledBlock_run : (arenaSystem BcCore.reference Platform.x86 []).Run smallContext
    (System.performAll (ArenaState.event BcCore.reference Platform.x86) smallContext
      recyclingCalls).1 recycledBlock := by
  have allowed : System.AllowsAll (ArenaState.event BcCore.reference Platform.x86)
      ArenaState.Allows smallContext recyclingCalls := by decide +kernel
  exact arenaRun_calls (.start smallContext_start) allowed

end BcAllocators
