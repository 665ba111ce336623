import BcAllocators.Slab.Lifecycle

/-!
# What a slab leaves alone

Apart from the calls of the pool, the functions of a slab write only where the slab is
read: in its header, in its pages and in the links of its free slots. A live object is not
read, and neither are the blocks of others. So the calls of a slab leave the bytes of its
live objects alone, whichever of them a client allocates or frees in between, and so do
they with the blocks of others (`slabAllocate_kept`, `slabFree_kept`, `slabCreate_keeps`).
-/

set_option autoImplicit false

namespace BcAllocators

open Machine

variable {σ : Type} {pool : PoolApi σ} {view : PoolView σ} {s s' s'' : σ} {v : SlabView}
variable {own others : List Grant} {m : Memory} {a : Nat} {rest : List Nat}

/-! ## Writes to blocks of one owner -/

/-- Blocks of different owners are apart. -/
theorem PoolContract.owners_apart (contract : PoolContract pool view) (sound : view.Sound s)
    (held : (view.grants s).Perm (own ++ others)) {g h : Grant} (mine : g ∈ own)
    (yours : h ∈ others) : g.extent.Apart h.extent := by
  have pairwise : (view.grants s).Pairwise fun g h => g.extent.Apart h.extent :=
    List.pairwise_map.mp (contract.apart sound)
  have all := (held.pairwise_iff fun apart => Extent.Apart.symm apart).mp pairwise
  exact (List.pairwise_append.mp all).2.2 g mine h yours

/-- **A write to the blocks of one owner** keeps those of the others. -/
theorem PoolContract.write_own_keeps (contract : PoolContract pool view) (sound : view.Sound s)
    (held : (view.grants s).Perm (own ++ others))
    (changes : ChangesOnly {c | ∃ g ∈ own, c ∈ g.extent.bytes} (pool.memory s) m) :
    Keeps pool view others s (pool.setMemory s m) := by
  intro c spared
  refine (congrFun (contract.memory_setMemory s m) c).trans (changes c ?_)
  rintro ⟨g, mine, inside⟩
  have bounds := contract.bounds sound g (held.mem_iff.mpr (List.mem_append_left _ mine))
  cases spared with
  | inl outside => exact outside (bounds.2.2.2.2.2 inside)
  | inr other =>
      obtain ⟨h, yours, within⟩ := other
      exact (contract.owners_apart sound held mine yours).disjoint inside within

/-! ## Objects and others -/

/-- An object lies in one of the blocks of the slab. -/
theorem SlabLayout.object_inside (layout : SlabLayout v) (live : a ∈ v.live) {c : Nat}
    (inside : c ∈ Set.Ico a (a + v.objectSize)) : ∃ g ∈ v.grants, c ∈ g.extent.bytes := by
  obtain ⟨p, inPages, slot⟩ := SlabLayout.mem_slots.mp (layout.live_mem live)
  have within := layout.slot_inside inPages slot
  rw [Set.mem_Ico] at inside
  exact ⟨p.objects, SlabLayout.mem_grants_objects inPages, within.1.trans inside.1,
    lt_of_lt_of_le inside.2 within.2⟩

/-- The blocks of others are as they were, and so are the live objects of a slab. -/
structure SlabKept (pool : PoolApi σ) (view : PoolView σ) (s : σ) (v : SlabView)
    (others : List Grant) (s' : σ) : Prop where
  others : Keeps pool view others s s'
  objects : ∀ a ∈ v.live, ∀ c ∈ Set.Ico a (a + v.objectSize), pool.memory s' c = pool.memory s c

theorem SlabKept.trans (first : SlabKept pool view s v others s')
    (second : SlabKept pool view s' v others s'') : SlabKept pool view s v others s'' :=
  ⟨first.others.trans second.others, fun a live c inside =>
    (second.objects a live c inside).trans (first.objects a live c inside)⟩

/-- A step that keeps every block keeps the objects in them. -/
theorem SlabInv.kept (inv : SlabInv pool view s v others)
    (keeps : Keeps pool view (view.grants s) s s') : SlabKept pool view s v others s' where
  others := keeps.mono fun _ member => inv.held.mem_iff.mpr (List.mem_append_right _ member)
  objects a live c inside := by
    obtain ⟨g, member, within⟩ := inv.layout.object_inside live inside
    exact keeps.block (inv.mem_grants member) c within

/-- **Writes where a slab is read** keep its objects and the blocks of others. -/
theorem SlabLayout.write_kept (contract : PoolContract pool view) (layout : SlabLayout v)
    (sound : view.Sound s) (held : (view.grants s).Perm (v.grants ++ others))
    (changes : ChangesOnly {c | v.Reads c} (pool.memory s) m) :
    SlabKept pool view s v others (pool.setMemory s m) where
  others := contract.write_own_keeps sound held
    (changes.mono fun _ reads => layout.reads_inside reads)
  objects a live c inside := by
    refine (congrFun (contract.memory_setMemory s m) c).trans (changes c ?_)
    exact layout.live_unread live inside.1 inside.2

/-! ## Where the functions write -/

/-- The words of the header are read. -/
theorem SlabView.reads_header {k : Nat} (within : k + 8 ≤ sizeofSlab) :
    Set.Ico (v.address + k) (v.address + k + 8) ⊆ {c | v.Reads c} := by
  intro c inside
  rw [Set.mem_Ico] at inside
  exact Or.inl ⟨by omega, by omega⟩

/-- The first word of a free slot is read. -/
theorem SlabView.reads_free (free : a ∈ v.free) : Set.Ico a (a + 8) ⊆ {c | v.Reads c} :=
  fun _ inside => Or.inr (Or.inr ⟨a, free, inside⟩)

theorem takeSlot_reads (m : Memory) :
    ChangesOnly {c | v.Reads c} m (takeSlot m v.address) := by
  unfold takeSlot listPop
  dsimp only
  refine ChangesOnly.trans ?_ ((changesOnly_storeWord _ _ _).mono
    (SlabView.reads_header (show 48 + 8 ≤ sizeofSlab by decide)))
  split
  · exact (changesOnly_storeWord _ _ _).mono
      (SlabView.reads_header (show 24 + 8 ≤ sizeofSlab by decide))
  · exact ChangesOnly.refl _ m

/-- A slot is written when it is free already. -/
theorem putBackSlot_reads (m : Memory) (free : a ∈ v.free) :
    ChangesOnly {c | v.Reads c} m (putBackSlot m v.address a) := by
  unfold putBackSlot listPush
  dsimp only
  exact (((changesOnly_storeWord _ _ _).mono (SlabView.reads_free free)).trans
    ((changesOnly_storeWord _ _ _).mono
      (SlabView.reads_header (show 24 + 8 ≤ sizeofSlab by decide)))).trans
    ((changesOnly_storeWord _ _ _).mono
      (SlabView.reads_header (show 48 + 8 ≤ sizeofSlab by decide)))

theorem addPage_reads {p : SlabPage} (layout : SlabLayout (v.withPage p))
    (shape : SlabShape m v) :
    ChangesOnly {c | (v.withPage p).Reads c} m
      (fillPage (linkPage m v.address p.page.ptr p.objects.ptr) v.address p.objects.ptr) := by
  rw [fillPage_linked layout shape]
  refine ChangesOnly.trans ((linkPage_changesOnly m _ _ _).mono ?_) (changesOnly_pushAll ?_ _)
  · rintro c (page | fields)
    · exact Or.inr (Or.inl ⟨p, List.mem_cons_self, page⟩)
    · rw [Set.mem_Ico] at fields
      refine Or.inl ⟨(Nat.le_add_right _ 32).trans fields.1, ?_⟩
      unfold sizeofSlab
      exact fields.2.trans (Nat.add_lt_add_left (by decide) v.address)
  · intro b member
    rcases List.mem_cons.mp member with rfl | slot
    · exact SlabView.reads_header (v := v.withPage p) (show 24 + 8 ≤ sizeofSlab by decide)
    · refine SlabView.reads_free (v := v.withPage p) ?_
      exact List.mem_append_left _ (List.mem_reverse.mpr slot)

/-! ## The functions of a slab -/

/-- **Adding a page** keeps the objects and the blocks of others. -/
theorem allocateNewPage_kept (contract : PoolContract pool view)
    (inv : SlabInv pool view s v others)
    (trusted : view.Trusted (allocateNewPage pool s v.address).1) :
    SlabKept pool view s v others (allocateNewPage pool s v.address).1 := by
  rcases allocateNewPage_takes contract inv.sound trusted with
    ⟨_, nothing⟩ | ⟨page, objects, s₂, taken, same⟩
  · exact inv.kept nothing.keeps
  · rw [same]
    have layout := (taken.fill contract inv).inv.layout
    have held : (view.grants s₂).Perm ((v.withPage ⟨page, objects⟩).grants ++ others) :=
      taken.grants ▸ inv.held_withPage page objects
    have filled := layout.write_kept contract taken.sound held
      (addPage_reads layout (inv.shape_kept taken.keeps))
    exact (inv.kept taken.keeps).trans ⟨filled.others, filled.objects⟩

/-- Taking a slot keeps the objects and the blocks of others. -/
theorem SlabInv.take_kept (contract : PoolContract pool view)
    (inv : SlabInv pool view s v others) :
    SlabKept pool view s v others (pool.setMemory s (takeSlot (pool.memory s) v.address)) :=
  inv.layout.write_kept contract inv.sound inv.held (takeSlot_reads (pool.memory s))

/-- **`bc_allocators_slab_allocate`** keeps the objects and the blocks of others. -/
theorem slabAllocate_kept (contract : PoolContract pool view)
    (inv : SlabInv pool view s v others)
    (trusted : view.Trusted (slabAllocate pool s v.address).1) :
    SlabKept pool view s v others (slabAllocate pool s v.address).1 := by
  unfold slabAllocate at trusted ⊢
  dsimp only at trusted ⊢
  by_cases null : slabFreeListHead (pool.memory s) v.address = NULL
  · rw [if_pos null] at trusted ⊢
    have trusted' : view.Trusted (allocateNewPage pool s v.address).1 := by
      split at trusted
      · exact trusted
      · exact contract.trusted_setMemory.mp trusted
    have kept := allocateNewPage_kept contract inv trusted'
    rcases allocateNewPage_spec contract inv trusted' with ⟨failed, _⟩ | ⟨ready, p, page⟩
    · rw [if_pos failed]
      exact kept
    · rw [if_neg (by rw [ready]; simp)]
      have taken := page.inv.take_kept contract
      exact kept.trans ⟨taken.others, taken.objects⟩
  · rw [if_neg null]
    exact inv.take_kept contract

/-- **`bc_allocators_slab_free`** keeps the other objects and the blocks of others. -/
theorem slabFree_kept (contract : PoolContract pool view) (inv : SlabInv pool view s v others)
    (split : v.live.Perm (a :: rest)) :
    SlabKept pool view s (v.move (a :: v.free) rest) others (slabFree pool s v.address a) := by
  obtain ⟨_, layout⟩ := inv.shape.putBack inv.layout split
  exact layout.write_kept contract inv.sound inv.held
    (putBackSlot_reads (pool.memory s) List.mem_cons_self)

/-- A write to an object keeps the blocks of others. -/
theorem SlabInv.writeObject_keeps (contract : PoolContract pool view)
    (inv : SlabInv pool view s v others) {address : Nat} {bytes : List UInt8} (live : a ∈ v.live)
    (lower : a ≤ address) (upper : address + bytes.length ≤ a + v.objectSize) :
    Keeps pool view others s
      (pool.setMemory s (storeBytes (pool.memory s) address bytes)) := by
  refine contract.write_own_keeps inv.sound inv.held
    ((changesOnly_storeBytes _ _ _).mono fun c inside => ?_)
  exact inv.layout.object_inside live ⟨lower.trans inside.1, lt_of_lt_of_le inside.2 upper⟩

/-- **`bc_allocators_slab_create`** keeps all blocks there are. -/
theorem slabCreate_keeps (contract : PoolContract pool view) (sound : view.Sound s)
    {memory objectSize objectsPerSlab : Nat} (fits : objectsPerSlab * objectSize < 2 ^ 64)
    (trusted : view.Trusted (slabCreate pool s memory objectSize objectsPerSlab).1) :
    Keeps pool view (view.grants s) s
      (slabCreate pool s memory objectSize objectsPerSlab).1 := by
  by_cases valid : 8 ≤ objectSize ∧ 1 ≤ objectsPerSlab
  case neg =>
    rw [slabCreate_invalid s memory valid]
    exact Keeps.refl s
  have arguments : SlabArguments objectSize objectsPerSlab := ⟨valid.1, valid.2, fits⟩
  rcases slabCreate_begins contract sound arguments.words.1 arguments.words.2 trusted with
    ⟨_, nothing⟩ | ⟨g, s₁, header, page, same⟩
  · exact nothing.keeps
  have bare := header.slab contract arguments
  have kept := header.keeps.trans (allocateNewPage_kept contract bare page).others
  rw [same]
  unfold finishCreate
  rcases allocateNewPage_spec contract bare page with ⟨failed, nothing⟩ | ⟨added, _⟩
  · rw [if_pos (show (allocateNewPage pool s₁ g.ptr).2 = false from failed)]
    obtain ⟨_, _, back⟩ := contract.give_back nothing.sound (nothing.grants.trans header.grants)
    exact kept.trans back
  · rw [if_neg (show ¬ (allocateNewPage pool s₁ g.ptr).2 = false by
      rw [show (allocateNewPage pool s₁ g.ptr).2 = true from added]; simp)]
    exact kept

end BcAllocators
