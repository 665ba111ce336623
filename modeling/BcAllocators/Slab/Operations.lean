import BcAllocators.Slab.Slots

/-!
# The operations of a slab

What the functions of the slab do over a pool that keeps its contract. A slab in
a state of the pool (`SlabInv`) has its blocks among those held, next to those of
other clients, and a memory that represents it. Adding a page either fails and
leaves the held blocks as they were, or adds one page with all its slots free
(`allocateNewPage_spec`).
-/

set_option autoImplicit false

namespace BcAllocators

open Machine

variable {σ : Type} {pool : PoolApi σ} {view : PoolView σ} {s s' : σ} {v : SlabView}
variable {others gs : List Grant} {g : Grant}

/-- A slab in a state of the pool, next to the blocks of others. -/
structure SlabInv (pool : PoolApi σ) (view : PoolView σ) (s : σ) (v : SlabView)
    (others : List Grant) : Prop where
  sound : view.Sound s
  held : (view.grants s).Perm (v.grants ++ others)
  shape : SlabShape (pool.memory s) v
  layout : SlabLayout v

namespace SlabInv

theorem mem_grants (inv : SlabInv pool view s v others) (member : g ∈ v.grants) :
    g ∈ view.grants s :=
  inv.held.mem_iff.mpr (List.mem_append_left _ member)

/-- The shape of a slab lies in the bytes of its blocks. -/
theorem shape_kept (inv : SlabInv pool view s v others)
    (keeps : Keeps pool view (view.grants s) s s') : SlabShape (pool.memory s') v :=
  inv.shape.congr fun a reads => by
    obtain ⟨g, member, inside⟩ := inv.layout.reads_inside reads
    exact keeps.block (inv.mem_grants member) a inside

/-- A slab goes on in any state with the same bytes in its blocks. -/
theorem keep (inv : SlabInv pool view s v others) {others' : List Grant}
    (sound : view.Sound s') (held : (view.grants s').Perm (v.grants ++ others'))
    (keeps : Keeps pool view v.grants s s') : SlabInv pool view s' v others' where
  sound := sound
  held := held
  shape := inv.shape.congr fun a reads => by
    obtain ⟨g, member, inside⟩ := inv.layout.reads_inside reads
    exact keeps.block member a inside
  layout := inv.layout

/-- A slab after a change of memory inside its blocks. -/
theorem write (contract : PoolContract pool view) (inv : SlabInv pool view s v others)
    {v' : SlabView} {m : Memory} (same : v'.grants = v.grants)
    (changes : ChangesOnly {a | ∃ g ∈ v.grants, a ∈ g.extent.bytes} (pool.memory s) m)
    (shape : SlabShape m v') (layout : SlabLayout v') :
    SlabInv pool view (pool.setMemory s m) v' others := by
  obtain ⟨sound, grants⟩ := contract.write_all inv.sound (fun g => inv.mem_grants) changes
  refine ⟨sound, ?_, ?_, layout⟩
  · rw [grants, same]
    exact inv.held
  · rw [contract.memory_setMemory]
    exact shape

end SlabInv

/-! ## A block taken and given back -/

/-- Giving back the block that was taken last restores the held blocks. -/
theorem PoolContract.give_back (contract : PoolContract pool view) (sound : view.Sound s)
    (head : view.grants s = g :: gs) :
    view.Sound (pool.free s g.ptr) ∧ view.grants (pool.free s g.ptr) = gs ∧
      Keeps pool view gs s (pool.free s g.ptr) := by
  obtain ⟨freed, grants, keeps⟩ := contract.free sound (head ▸ List.mem_cons_self)
  rw [head, dropGrant_cons (contract.others_ne sound (head ▸ .refl _))] at grants keeps
  exact ⟨freed, grants, keeps⟩

/-! ## Pages -/

/-- A failed step that took no block: the held blocks and their bytes are as they
were. -/
structure NothingTaken (pool : PoolApi σ) (view : PoolView σ) (s s' : σ) : Prop where
  sound : view.Sound s'
  grants : view.grants s' = view.grants s
  keeps : Keeps pool view (view.grants s) s s'

/-- A slab is not affected by a step that took no block. -/
theorem NothingTaken.slab (nothing : NothingTaken pool view s s')
    (inv : SlabInv pool view s v others) : SlabInv pool view s' v others :=
  inv.keep nothing.sound (nothing.grants ▸ inv.held)
    (nothing.keeps.mono fun _ member => inv.mem_grants member)

/-- The blocks held once a page is added. -/
theorem SlabInv.held_withPage (inv : SlabInv pool view s v others) (page objects : Grant) :
    (objects :: page :: view.grants s).Perm
      ((v.withPage ⟨page, objects⟩).grants ++ others) := by
  refine ((inv.held.cons page).cons objects).trans ?_
  change (objects :: page :: v.header :: (_ ++ others)).Perm
    (v.header :: objects :: page :: (_ ++ others))
  exact ((List.Perm.swap v.header page _).cons objects).trans (.swap v.header objects _)

/-- The blocks of a slab with two blocks more for a new page are laid out. -/
theorem SlabInv.layout_withPage (contract : PoolContract pool view)
    (inv : SlabInv pool view s v others) {s₂ : σ} (sound : view.Sound s₂) {page objects : Grant}
    (held : view.grants s₂ = objects :: page :: view.grants s)
    (pageSize : page.requested = sizeofSlabPage)
    (size : objects.requested = v.objectsPerSlab * v.objectSize) :
    SlabLayout (v.withPage ⟨page, objects⟩) := by
  have perm : (view.grants s₂).Perm ((v.withPage ⟨page, objects⟩).grants ++ others) :=
    held ▸ inv.held_withPage page objects
  have inside : ∀ g ∈ (v.withPage ⟨page, objects⟩).grants, g ∈ view.grants s₂ :=
    fun g member => perm.mem_iff.mpr (List.mem_append_left _ member)
  have pairwise : (view.grants s₂).Pairwise fun g h => g.extent.Apart h.extent :=
    List.pairwise_map.mp (contract.apart sound)
  have pageBounds := contract.bounds sound page (held ▸ by simp)
  have objectsBounds := contract.bounds sound objects (held ▸ by simp)
  constructor
  case size_ge => exact inv.layout.size_ge
  case some => exact inv.layout.some
  case fits => exact inv.layout.fits
  case header => exact inv.layout.header
  case page =>
    intro p member
    rcases List.mem_cons.mp member with rfl | old
    · dsimp only
      omega
    · exact inv.layout.page p old
  case requested =>
    intro p member
    rcases List.mem_cons.mp member with rfl | old
    · exact size
    · exact inv.layout.requested p old
  case objects =>
    intro p member
    rcases List.mem_cons.mp member with rfl | old
    · change v.objectsPerSlab * v.objectSize ≤ objects.usable
      omega
    · exact inv.layout.objects p old
  case apart =>
    have all := (perm.pairwise_iff fun apart => Extent.Apart.symm apart).mp pairwise
    exact (List.pairwise_append.mp all).1
  case bounds =>
    intro g member
    have bounds := contract.bounds sound g (inside g member)
    exact ⟨bounds.1, bounds.2.2.2.2.1⟩
  case slots =>
    change (((SlabPage.slots _ _ _).reverse ++ v.free) ++ v.live).Perm
      (SlabPage.slots _ _ _ ++ v.slots)
    rw [List.append_assoc]
    exact (List.reverse_perm _).append inv.layout.slots

/-- Two blocks were taken for a page: the second has the size that the fields of the
slab give. -/
structure PageTaken (pool : PoolApi σ) (view : PoolView σ) (s : σ) (slab : Nat)
    (page objects : Grant) (s' : σ) : Prop where
  sound : view.Sound s'
  grants : view.grants s' = objects :: page :: view.grants s
  keeps : Keeps pool view (view.grants s) s s'
  page : page.requested = sizeofSlabPage
  objects : ∃ s₁, Keeps pool view (view.grants s) s s₁ ∧ objects.requested =
    wmul (slabObjectsPerSlab (pool.memory s₁) slab) (slabObjectSize (pool.memory s₁) slab)

/-- The last part of `allocate_new_page`, once both blocks are there. -/
def finishPage (pool : PoolApi σ) (s : σ) (slab : Nat) (page objects : Grant) : σ :=
  pool.setMemory s
    (fillPage (linkPage (pool.memory s) slab page.ptr objects.ptr) slab objects.ptr)

/-- **`allocate_new_page`** takes nothing, or takes two blocks and fills them. -/
theorem allocateNewPage_takes (contract : PoolContract pool view) (sound : view.Sound s)
    {slab : Nat} (trusted : view.Trusted (allocateNewPage pool s slab).1) :
    (allocateNewPage pool s slab).2 = false ∧
        NothingTaken pool view s (allocateNewPage pool s slab).1 ∨
      ∃ page objects s₂, PageTaken pool view s slab page objects s₂ ∧
        allocateNewPage pool s slab = (finishPage pool s₂ slab page objects, true) := by
  unfold allocateNewPage at trusted ⊢
  dsimp only at trusted ⊢
  by_cases refused : (pool.allocate s sizeofSlabPage).2.ok = false
  · rw [if_pos refused] at trusted ⊢
    obtain ⟨sound₁, keeps, outcome⟩ := contract.allocate sound (by decide) trusted
    refine Or.inl ⟨rfl, sound₁, ?_, keeps⟩
    rcases outcome with ⟨_, same⟩ | ⟨g, granted, _⟩
    · exact same
    · rw [granted] at refused
      simp at refused
  rw [if_neg refused] at trusted ⊢
  generalize asked : wmul _ _ = size at trusted ⊢
  have word : size < 2 ^ 64 := asked ▸ wmul_lt _ _
  -- the trust of the second request is that of the whole call
  have trusted₂ : view.Trusted
      (pool.allocate (pool.allocate s sizeofSlabPage).1 size).1 := by
    split at trusted
    · exact contract.trusted_free.mp trusted
    · exact contract.trusted_setMemory.mp trusted
  obtain ⟨sound₁, keeps₁, outcome₁⟩ :=
    contract.allocate sound (by decide) (contract.trusted_allocate trusted₂)
  obtain ⟨sound₂, keeps₂, outcome₂⟩ := contract.allocate sound₁ word trusted₂
  rcases outcome₁ with ⟨failed, _⟩ | ⟨page, granted₁, pageSize, grants₁⟩
  · rw [failed] at refused
    exact absurd rfl refused
  have more : ∀ g ∈ view.grants s, g ∈ view.grants (pool.allocate s sizeofSlabPage).1 :=
    fun g member => grants₁ ▸ List.mem_cons_of_mem page member
  rcases outcome₂ with ⟨failed, grants₂⟩ | ⟨objects, granted₂, objectsSize, grants₂⟩
  · rw [if_pos (by rw [failed]; rfl), granted₁]
    obtain ⟨sound₃, grants, keeps₃⟩ := contract.give_back sound₂ (grants₂.trans grants₁)
    exact Or.inl ⟨rfl, sound₃, grants, (keeps₁.trans (keeps₂.mono more)).trans keeps₃⟩
  · rw [if_neg (by rw [granted₂]; simp), granted₁, granted₂]
    refine Or.inr ⟨page, objects, _, ⟨sound₂, ?_, keeps₁.trans (keeps₂.mono more), pageSize,
      _, keeps₁, objectsSize.trans asked.symm⟩, rfl⟩
    rw [grants₂, grants₁]

/-- A page was added: two blocks were taken, and the slots of one of them are free. -/
structure PageAdded (pool : PoolApi σ) (view : PoolView σ) (s : σ) (v : SlabView)
    (others : List Grant) (s' : σ) (p : SlabPage) : Prop where
  grants : view.grants s' = p.objects :: p.page :: view.grants s
  inv : SlabInv pool view s' (v.withPage p) others

/-- Filling a page that was taken adds it to the slab. -/
theorem PageTaken.fill (contract : PoolContract pool view) {page objects : Grant}
    (taken : PageTaken pool view s v.address page objects s')
    (inv : SlabInv pool view s v others) :
    PageAdded pool view s v others (finishPage pool s' v.address page objects)
      ⟨page, objects⟩ := by
  have shape' := inv.shape_kept taken.keeps
  have size : objects.requested = v.objectsPerSlab * v.objectSize := by
    obtain ⟨s₁, keeps, requested⟩ := taken.objects
    have shape₁ := inv.shape_kept keeps
    rw [requested, shape₁.objectsPerSlab, shape₁.objectSize, wmul_of_lt inv.layout.fits]
  have layout := inv.layout_withPage contract taken.sound taken.grants taken.page size
  have held : (view.grants s').Perm ((v.withPage ⟨page, objects⟩).grants ++ others) :=
    taken.grants ▸ inv.held_withPage page objects
  have changes := layout.addPage_changesOnly shape'
  have filled := SlabShape.addPage layout shape'
  dsimp only at changes filled
  obtain ⟨sound, grants⟩ := contract.write_all taken.sound
    (fun g member => held.mem_iff.mpr (List.mem_append_left _ member)) changes
  unfold finishPage
  constructor
  case grants => exact grants.trans taken.grants
  case inv =>
    refine ⟨sound, (List.Perm.of_eq grants).trans held, ?_, layout⟩
    rw [contract.memory_setMemory]
    exact filled

/-- **Adding a page** takes nothing or adds one. -/
theorem allocateNewPage_spec (contract : PoolContract pool view)
    (inv : SlabInv pool view s v others)
    (trusted : view.Trusted (allocateNewPage pool s v.address).1) :
    (allocateNewPage pool s v.address).2 = false ∧
        NothingTaken pool view s (allocateNewPage pool s v.address).1 ∨
      (allocateNewPage pool s v.address).2 = true ∧
        ∃ p, PageAdded pool view s v others (allocateNewPage pool s v.address).1 p := by
  rcases allocateNewPage_takes contract inv.sound trusted with
    nothing | ⟨page, objects, s₂, taken, same⟩
  · exact Or.inl nothing
  · rw [same]
    exact Or.inr ⟨rfl, ⟨page, objects⟩, taken.fill contract inv⟩

/-! ## Objects -/

/-- The words of the header lie in its block. -/
theorem SlabLayout.field_bytes (layout : SlabLayout v) {k : Nat} (within : k + 8 ≤ sizeofSlab) :
    Set.Ico (v.address + k) (v.address + k + 8) ⊆
      {b | ∃ g ∈ v.grants, b ∈ g.extent.bytes} := by
  have wide := layout.header
  intro b inside
  rw [Set.mem_Ico] at inside
  refine ⟨v.header, List.mem_cons_self, ?_⟩
  rw [Extent.mem_bytes]
  unfold SlabView.address at inside
  unfold Grant.extent
  dsimp only
  omega

/-- Taking a slot writes to the header. -/
theorem takeSlot_changesOnly (m : Memory) (layout : SlabLayout v) :
    ChangesOnly {b | ∃ g ∈ v.grants, b ∈ g.extent.bytes} m (takeSlot m v.address) := by
  unfold takeSlot listPop
  dsimp only
  refine ChangesOnly.trans ?_ ((changesOnly_storeWord _ _ _).mono
    (layout.field_bytes (show 48 + 8 ≤ sizeofSlab by decide)))
  split
  · exact (changesOnly_storeWord _ _ _).mono
      (layout.field_bytes (show 24 + 8 ≤ sizeofSlab by decide))
  · exact ChangesOnly.refl _ m

/-- An object was handed out: the first free slot, now live. -/
structure ObjectTaken (pool : PoolApi σ) (view : PoolView σ) (v : SlabView)
    (others : List Grant) (s' : σ) (a : Nat) (rest : List Nat) : Prop where
  first : v.free = a :: rest
  inv : SlabInv pool view s' (v.move rest (a :: v.live)) others

/-- The last part of `bc_allocators_slab_allocate`, once a slot is free. -/
theorem SlabInv.take (contract : PoolContract pool view) (inv : SlabInv pool view s v others)
    {a : Nat} {rest : List Nat} (first : v.free = a :: rest) :
    (listPop (pool.memory s) (v.address + 24)).2 = a ∧
      ObjectTaken pool view v others (pool.setMemory s (takeSlot (pool.memory s) v.address)) a
        rest ∧
      view.grants (pool.setMemory s (takeSlot (pool.memory s) v.address)) = view.grants s := by
  obtain ⟨popped, shape, layout⟩ := inv.shape.take inv.layout first
  have changes := takeSlot_changesOnly (pool.memory s) inv.layout
  refine ⟨popped, ⟨first, inv.write contract rfl changes shape layout⟩, ?_⟩
  exact (contract.write_all inv.sound (fun g => inv.mem_grants) changes).2

/-- The outcomes of `bc_allocators_slab_allocate`: nothing, a free slot, or a slot
of a page that is added because none is free. -/
inductive SlabAllocateOutcome (pool : PoolApi σ) (view : PoolView σ) (s : σ) (v : SlabView)
    (others : List Grant) (result : σ × PtrResult) : Prop where
  | refused : v.free = [] → result.2 = .failed → NothingTaken pool view s result.1 →
      SlabAllocateOutcome pool view s v others result
  | reused {a : Nat} {rest : List Nat} : result.2 = ⟨true, a⟩ →
      view.grants result.1 = view.grants s →
      ObjectTaken pool view v others result.1 a rest →
      SlabAllocateOutcome pool view s v others result
  | added {p : SlabPage} {a : Nat} {rest : List Nat} : v.free = [] → result.2 = ⟨true, a⟩ →
      view.grants result.1 = p.objects :: p.page :: view.grants s →
      ObjectTaken pool view (v.withPage p) others result.1 a rest →
      SlabAllocateOutcome pool view s v others result

/-- **`bc_allocators_slab_allocate`** has one of its outcomes. -/
theorem slabAllocate_spec (contract : PoolContract pool view)
    (inv : SlabInv pool view s v others)
    (trusted : view.Trusted (slabAllocate pool s v.address).1) :
    SlabAllocateOutcome pool view s v others (slabAllocate pool s v.address) := by
  have empty := inv.shape.free.eq_nil_iff
  unfold slabAllocate slabFreeListHead at trusted ⊢
  dsimp only at trusted ⊢
  by_cases null : loadWord (pool.memory s) (v.address + 24) = NULL
  · have none : v.free = [] := empty.mpr null
    rw [if_pos null] at trusted ⊢
    -- the page is added first, and the trust of the whole call is that of the page
    have trusted' : view.Trusted (allocateNewPage pool s v.address).1 := by
      split at trusted
      · exact trusted
      · exact contract.trusted_setMemory.mp trusted
    rcases allocateNewPage_spec contract inv trusted' with ⟨failed, nothing⟩ | ⟨ready, p, page⟩
    · rw [if_pos failed]
      exact .refused none rfl nothing
    · rw [if_neg (by rw [ready]; simp)]
      have some : 0 < (v.withPage p).free.length := by
        have count := page.inv.layout.some
        change 1 ≤ v.objectsPerSlab at count
        change 0 < ((SlabPage.slots _ _ _).reverse ++ v.free).length
        rw [List.length_append, List.length_reverse]
        unfold SlabPage.slots
        rw [List.length_map, List.length_range]
        omega
      obtain ⟨a, rest, first⟩ := List.exists_cons_of_length_pos some
      obtain ⟨popped, taken, grants⟩ := page.inv.take contract first
      exact .added none (congrArg (PtrResult.mk true) popped) (grants.trans page.grants) taken
  · rw [if_neg null]
    obtain ⟨a, rest, first⟩ := List.exists_cons_of_ne_nil fun none => null (empty.mp none)
    obtain ⟨popped, taken, grants⟩ := inv.take contract first
    exact .reused (congrArg (PtrResult.mk true) popped) grants taken

/-- Putting a slot back writes to the header and to the slot. -/
theorem putBackSlot_changesOnly (m : Memory) (layout : SlabLayout v) {a : Nat}
    (member : a ∈ v.live) :
    ChangesOnly {b | ∃ g ∈ v.grants, b ∈ g.extent.bytes} m (putBackSlot m v.address a) := by
  have size := layout.size_ge
  obtain ⟨p, inPages, slot⟩ := SlabLayout.mem_slots.mp (layout.live_mem member)
  have inside := layout.slot_inside inPages slot
  have object : Set.Ico a (a + 8) ⊆ {b | ∃ g ∈ v.grants, b ∈ g.extent.bytes} := by
    intro b lies
    rw [Set.mem_Ico] at lies
    refine ⟨p.objects, SlabLayout.mem_grants_objects inPages, ?_⟩
    unfold Extent.stop Grant.extent at inside
    rw [Extent.mem_bytes]
    unfold Grant.extent
    dsimp only at inside ⊢
    omega
  unfold putBackSlot listPush
  dsimp only
  have head := layout.field_bytes (show 24 + 8 ≤ sizeofSlab by decide)
  have used := layout.field_bytes (show 48 + 8 ≤ sizeofSlab by decide)
  exact (((changesOnly_storeWord _ _ _).mono object).trans
    ((changesOnly_storeWord _ _ _).mono head)).trans ((changesOnly_storeWord _ _ _).mono used)

/-- **`bc_allocators_slab_free`** puts a live object back. -/
theorem slabFree_spec (contract : PoolContract pool view) (inv : SlabInv pool view s v others)
    {a : Nat} {rest : List Nat} (split : v.live.Perm (a :: rest)) :
    SlabInv pool view (slabFree pool s v.address a) (v.move (a :: v.free) rest) others ∧
      view.grants (slabFree pool s v.address a) = view.grants s := by
  obtain ⟨shape, layout⟩ := inv.shape.putBack inv.layout split
  have changes := putBackSlot_changesOnly (pool.memory s) inv.layout
    (split.mem_iff.mpr List.mem_cons_self)
  exact ⟨inv.write contract rfl changes shape layout,
    (contract.write_all inv.sound (fun g => inv.mem_grants) changes).2⟩

/-- **`bc_allocators_slab_get_stats`** reports the numbers of the slab. -/
theorem slabGetStats_spec {m : Memory} (shape : SlabShape m v) (layout : SlabLayout v) :
    slabGetStats m v.address =
      { objectSize := v.objectSize
        objectsPerSlab := v.objectsPerSlab
        slabCount := v.pages.length
        totalObjects := v.slots.length
        usedObjects := v.live.length
        freeObjects := v.free.length } := by
  have few := layout.slots_length_lt
  have total := layout.length_add
  rw [SlabLayout.slots_length] at few ⊢
  unfold slabGetStats
  dsimp only
  rw [shape.objectSize, shape.objectsPerSlab, shape.slabCount, shape.usedObjects,
    wmul_of_lt few, wsub_of_le (by omega) few]
  congr 1
  omega

end BcAllocators
