import BcAllocators.Shared.Client

/-!
# The rest of the process

A context is one part of a process. The other parts have memory of their own, their
stacks and data and whatever else was mapped when the context was created, and they
write to it whenever they like.

What the context has mapped was apart from that memory when it was mapped, so a write of
the others changes nothing that the context or its clients hold
(`SharedInv.foreign_stable`), and a call of the context changes nothing of theirs
(`SharedInv.spares`). In every run of the process the context keeps its invariant, and
the others find in their memory what they have written themselves (`process_isolated`).
-/

set_option autoImplicit false

namespace BcAllocators

open Machine

variable {core : BcCore} {platform : Platform} {foreign : List Extent} {s s' t : ContextState}
variable {views : List ArenaView} {w : World}

/-! ## The process -/

/-- A write by another part of the process. -/
structure ForeignWrite where
  address : Nat
  bytes : List UInt8
deriving DecidableEq, Repr

namespace ForeignWrite

/-- The write is to memory of the others. -/
def Within (foreign : List Extent) (x : ForeignWrite) : Prop :=
  ∃ f ∈ foreign, f.start ≤ x.address ∧ x.address + x.bytes.length ≤ f.stop

def apply (x : ForeignWrite) (m : Memory) : Memory := storeBytes m x.address x.bytes

/-- A memory after some writes. -/
def applyAll (writes : List ForeignWrite) (m : Memory) : Memory :=
  writes.foldl (fun m x => x.apply m) m

theorem applyAll_append (writes : List ForeignWrite) (x : ForeignWrite) (m : Memory) :
    applyAll (writes ++ [x]) m = x.apply (applyAll writes m) :=
  List.foldl_concat ..

/-- A write changes memory of the others. -/
theorem Within.changes {x : ForeignWrite} (within : x.Within foreign) (m : Memory) :
    ChangesOnly (blockBytes foreign) m (x.apply m) := by
  obtain ⟨f, member, lower, upper⟩ := within
  exact (changesOnly_storeBytes m x.address x.bytes).mono fun p inside =>
    ⟨f, member, Extent.mem_bytes.mpr
      ⟨lower.trans inside.1, lt_of_lt_of_le inside.2 upper⟩⟩

/-- What a write leaves at an address depends on what was there. -/
theorem apply_congr (x : ForeignWrite) {m m' : Memory} {p : Nat} (same : m' p = m p) :
    x.apply m' p = x.apply m p := by
  unfold apply storeBytes
  rw [same]

end ForeignWrite

/-- A context with another memory. -/
def ContextState.withMemory (s : ContextState) (m : Memory) : ContextState :=
  { s with world := { s.world with mem := m } }

/-- A call of a context, or a write by another part of the process. -/
abbrev ProcessEvent := ContextEvent ⊕ ForeignWrite

/-- Correct clients of a context, in a process with other parts. -/
def processSystem (core : BcCore) (platform : Platform) (foreign : List Extent) :
    System ContextState ProcessEvent :=
  System.interleave (FreshContext core platform foreign) (contextSystem core platform foreign).Next
    fun s x s' => x.Within foreign ∧ s' = s.withMemory (x.apply s.world.mem)

/-! ## Memory of the others -/

/-- The homes of objects are apart from the memory of the others. -/
theorem HistoryApart.not_foreign (apart : HistoryApart foreign w)
    (heap : ArenaHeap platform w views foreign) {p : Nat} (theirs : p ∈ blockBytes foreign) :
    ∀ f ∈ homes w views, p ∉ f.bytes := by
  intro f home inside
  obtain ⟨g, others, within⟩ := theirs
  obtain ⟨_, _, logged⟩ := heap.homes_apart f home
  exact (apart f logged g others).disjoint inside within

/-- What a turn of the context does: it spares the memory of the others. -/
def SparesForeign (foreign : List Extent) (s s' : ContextState) : Prop :=
  ∀ p ∈ blockBytes foreign, s'.world.mem p = s.world.mem p

/-- What a turn of the others does: it changes their memory alone. -/
inductive ForeignTurn (foreign : List Extent) (s : ContextState) : ContextState → Prop where
  | write {m : Memory} (changes : ChangesOnly (blockBytes foreign) s.world.mem m) :
      ForeignTurn foreign s (s.withMemory m)

/-- **A call of the context spares the memory of the others.** -/
theorem SharedInv.spares {event : ContextEvent} (inv : SharedInv core platform foreign s)
    (step : (contextSystem core platform foreign).Next s event s') :
    SparesForeign foreign s s' := by
  obtain ⟨pool, arenas, apart⟩ := inv
  intro p theirs
  cases event with
  | inl event =>
      obtain ⟨t, next, rfl⟩ := step
      obtain ⟨views, heap, _⟩ := arenas
      exact (pool.stays next).changes p
        (apart.not_foreign heap theirs _ List.mem_cons_self)
  | inr event =>
      obtain ⟨t, next, rfl⟩ := step
      have apart' := apart.step arenas next
      obtain ⟨views, heap, perm⟩ := arenas
      obtain ⟨views', touched⟩ := touched_call heap perm next.1 next.2
      refine touched.within p ?_
      rintro ⟨e, member, inside⟩
      rcases List.mem_append.mp member with before | after
      · exact apart.not_foreign heap theirs e (List.mem_cons_of_mem _ before) inside
      · exact apart'.not_foreign touched.heap theirs e (List.mem_cons_of_mem _ after) inside

/-- **A write of the others keeps the invariant of the context.** -/
theorem SharedInv.foreign_stable :
    System.Stable (SharedInv core platform foreign) (ForeignTurn foreign) := by
  rintro s _ ⟨pool, ⟨views, heap, perm⟩, apart⟩ ⟨changes⟩
  have spared : ∀ f ∈ homes s.world views, ∀ p ∈ f.bytes, p ∉ blockBytes foreign :=
    fun f home p inside theirs => apart.not_foreign heap theirs f home inside
  refine ⟨pool.stable ⟨⟨id, ArenaUpdate.refl _⟩, ?_⟩, ⟨views, ?_, perm⟩, apart⟩
  · exact fun p inside => changes p (spared _ List.mem_cons_self p inside)
  · refine ⟨heap.pageSize, heap.address, heap.ledger.congr rfl rfl, heap.shape, ?_, heap.sound⟩
    intro a member
    refine (heap.here a member).frame (heap.shape a member) changes fun e inBlocks f theirs => ?_
    have home : e ∈ homes s.world views :=
      List.mem_cons_of_mem _ (List.mem_flatMap.mpr ⟨a, member, inBlocks⟩)
    obtain ⟨_, _, logged⟩ := heap.homes_apart e home
    exact apart e logged f theirs

/-- A write of the others leaves the bytes of all objects alone. -/
theorem SharedInv.objects_stay (inv : SharedInv core platform foreign s)
    (turn : ForeignTurn foreign s s') {e : Extent} (member : e ∈ s.objects core) {p : Nat}
    (inside : p ∈ e.bytes) : s'.world.mem p = s.world.mem p := by
  obtain ⟨pool, ⟨views, heap, perm⟩, apart⟩ := inv
  obtain ⟨changes⟩ := turn
  obtain ⟨f, home, lower, upper⟩ := objects_home pool heap perm member
  obtain ⟨above, below⟩ := Extent.mem_bytes.mp inside
  refine changes p fun theirs => apart.not_foreign heap theirs f home ?_
  exact Extent.mem_bytes.mpr ⟨lower.trans above, lt_of_lt_of_le below upper⟩

/-! ## Every run -/

theorem context_guarantees (core : BcCore) (platform : Platform) (foreign : List Extent) :
    System.TracedGuarantees (contextSystem core platform foreign).Next
      (fun _ => SharedInv core platform foreign) (SparesForeign foreign) where
  keeps := fun inv step => inv.step step
  within := fun inv step => inv.spares step

/-- The memory of the others is what they have written since a state. -/
def ForeignMemory (foreign : List Extent) (m : Memory) (writes : List ForeignWrite)
    (s : ContextState) : Prop :=
  ∀ p ∈ blockBytes foreign, s.world.mem p = ForeignWrite.applyAll writes m p

theorem foreign_guarantees (foreign : List Extent) (m : Memory) :
    System.TracedGuarantees
      (fun (s : ContextState) (x : ForeignWrite) s' =>
        x.Within foreign ∧ s' = s.withMemory (x.apply s.world.mem))
      (ForeignMemory foreign m) (ForeignTurn foreign) where
  keeps := by
    rintro writes s _ x written ⟨_, rfl⟩ p theirs
    rw [ForeignWrite.applyAll_append]
    exact x.apply_congr (written p theirs)
  within := by
    rintro _ s _ x _ ⟨within, rfl⟩
    exact .write (within.changes s.world.mem)

/-- **A context and the rest of its process leave each other alone.** In every run of a
process, with calls of the context and writes of the others in any order, the context
keeps its invariant, the memory of the others holds what they have written and nothing
else, and a write of the others changes no byte of a pool block or of an allocation. -/
theorem process_isolated (core : BcCore) (platform : Platform) (foreign : List Extent)
    {labels : List ProcessEvent} (fresh : FreshContext core platform foreign s)
    (run : (processSystem core platform foreign).Run s labels t) :
    SharedInv core platform foreign t ∧
      ForeignMemory foreign s.world.mem (System.secondLabels labels) t ∧
      ∀ x t', (processSystem core platform foreign).Next t (.inr x) t' →
        ∀ e ∈ t.objects core, ∀ p ∈ e.bytes, t'.world.mem p = t.world.mem p := by
  have stable : ∀ writes, System.Stable (ForeignMemory foreign s.world.mem writes)
      (SparesForeign foreign) :=
    fun writes t t' written spared p theirs => (spared p theirs).trans (written p theirs)
  have both := System.interleave_traced (context_guarantees core platform foreign)
    (foreign_guarantees foreign s.world.mem) (fun _ => SharedInv.foreign_stable) stable run
    ⟨SharedInv.start fresh, fun _ _ => rfl⟩
  refine ⟨both.1, both.2, ?_⟩
  rintro x t' ⟨within, rfl⟩ e member p inside
  exact both.1.objects_stay (.write (within.changes t.world.mem)) member inside

/-! ## A small process -/

/-- The context of sixteen pages, next to a page of the others. -/
def besidePage : ContextState :=
  { sharedPages with
    world := { sixteenPages.world with
      kernel := { sixteenPages.world.kernel with
        mapped := sixteenPages.world.kernel.mapped ++ [⟨12288, 4096⟩] } } }

theorem besidePage_fresh :
    FreshContext BcCore.reference Platform.x86 [⟨12288, 4096⟩] besidePage := by
  refine ⟨some ⟨65536, true, 1, 7⟩, fun _ => 0, ⟨some 4096, some 65536, some 8192⟩, ?_, rfl,
    by decide, rfl, rfl, rfl, rfl⟩
  rintro c ⟨rfl⟩
  decide

/-- The others write two bytes to their page, and then a block is allocated. -/
def writtenPage : ContextState :=
  besidePage.withMemory (ForeignWrite.apply ⟨12288, [104, 105]⟩ besidePage.world.mem)

def blockBesidePage : ContextState :=
  writtenPage.withPool (writtenPage.pool.perform BcCore.reference (.allocate 24)).1

theorem process_isolated_blockBesidePage :
    SharedInv BcCore.reference Platform.x86 [⟨12288, 4096⟩] blockBesidePage ∧
      ForeignMemory [⟨12288, 4096⟩] besidePage.world.mem [⟨12288, [104, 105]⟩]
        blockBesidePage ∧
      ∀ x t', (processSystem BcCore.reference Platform.x86 [⟨12288, 4096⟩]).Next blockBesidePage
          (.inr x) t' →
        ∀ e ∈ blockBesidePage.objects BcCore.reference, ∀ p ∈ e.bytes,
          t'.world.mem p = blockBesidePage.world.mem p := by
  have write : (processSystem BcCore.reference Platform.x86 [⟨12288, 4096⟩]).Next besidePage
      (.inr ⟨12288, [104, 105]⟩) writtenPage :=
    ⟨⟨⟨12288, 4096⟩, List.mem_cons_self, by decide, by decide⟩, rfl⟩
  have block : (processSystem BcCore.reference Platform.x86 [⟨12288, 4096⟩]).Next writtenPage
      (.inl (.inl ⟨.allocate 24, (writtenPage.pool.perform BcCore.reference (.allocate 24)).2⟩))
      blockBesidePage :=
    ⟨_, ⟨show (24 : Nat) ≤ 65536 by decide, rfl⟩, rfl⟩
  exact process_isolated BcCore.reference Platform.x86 [⟨12288, 4096⟩] besidePage_fresh
    (((System.Run.nil besidePage).snoc write).snoc block)

end BcAllocators
