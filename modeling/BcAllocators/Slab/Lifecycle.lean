import BcAllocators.Slab.Operations

/-!
# Creation and destruction of a slab

A creation takes three blocks of the pool, the header, a page and its objects,
and gives back what it has taken when one of them is refused
(`slabCreate_spec`). A destruction walks the list of pages, which lies in the
very blocks that it frees: each page is read before it is freed, and a release
leaves the pages behind it alone. It is the release of every block of the slab,
one after the other, and nothing else (`slabDestroy_spec`).
-/

set_option autoImplicit false

namespace BcAllocators

open Machine

variable {σ : Type} {pool : PoolApi σ} {view : PoolView σ} {s s' : σ} {v : SlabView}
variable {others gs : List Grant} {g : Grant} {memory objectSize objectsPerSlab : Nat}

/-! ## Creation -/

/-- A slab without pages. -/
def SlabView.bare (header : Grant) (objectSize objectsPerSlab : Nat) : SlabView where
  header := header
  objectSize := objectSize
  objectsPerSlab := objectsPerSlab
  pages := []
  free := []
  live := []

/-- The arguments with which a slab may be created. -/
structure SlabArguments (objectSize objectsPerSlab : Nat) : Prop where
  size_ge : 8 ≤ objectSize
  some : 1 ≤ objectsPerSlab
  fits : objectsPerSlab * objectSize < 2 ^ 64

theorem SlabArguments.words (arguments : SlabArguments objectSize objectsPerSlab) :
    objectSize < 2 ^ 64 ∧ objectsPerSlab < 2 ^ 64 := by
  have size := arguments.size_ge
  have some := arguments.some
  have fits := arguments.fits
  exact ⟨lt_of_le_of_lt (Nat.le_mul_of_pos_left objectSize some) fits,
    lt_of_le_of_lt (Nat.le_mul_of_pos_right objectsPerSlab (by omega)) fits⟩

/-- A header that is set up represents a slab without pages. -/
theorem initSlab_shape (m : Memory) (header : Grant) (memory : Nat)
    (sizeWord : objectSize < 2 ^ 64) (countWord : objectsPerSlab < 2 ^ 64) :
    SlabShape (initSlab m header.ptr memory objectSize objectsPerSlab)
      (.bare header objectSize objectsPerSlab) := by
  have null : NULL < 2 ^ 64 := by decide
  have field : ∀ x < 2 ^ 64, ∀ (n : Memory) (a : Nat), loadWord (storeWord n a x) a = x :=
    fun x word n a => loadWord_storeWord_of_lt word
  unfold initSlab
  dsimp only
  constructor
  case objectSize =>
    unfold slabObjectSize SlabView.address SlabView.bare
    simp (disch := omega) only [loadWord_storeWord_of_apart]
    exact field objectSize sizeWord _ _
  case objectsPerSlab =>
    unfold slabObjectsPerSlab SlabView.address SlabView.bare
    simp (disch := omega) only [loadWord_storeWord_of_apart]
    exact field objectsPerSlab countWord _ _
  case free =>
    change loadWord _ (header.ptr + 24) = 0
    simp (disch := omega) only [loadWord_storeWord_of_apart]
    exact field NULL null _ _
  case pages =>
    change loadWord _ (header.ptr + 32) = 0
    simp (disch := omega) only [loadWord_storeWord_of_apart]
    exact field NULL null _ _
  case objects =>
    intro p member
    cases member
  case slabCount =>
    change loadWord _ (header.ptr + 40) = 0
    simp (disch := omega) only [loadWord_storeWord_of_apart]
    exact field 0 (by decide) _ _
  case usedObjects =>
    change loadWord _ (header.ptr + 48) = 0
    exact field 0 (by decide) _ _

/-- Setting up a header writes to it. -/
theorem initSlab_changesOnly (m : Memory) (slab memory objectSize objectsPerSlab : Nat) :
    ChangesOnly (Set.Ico slab (slab + sizeofSlab)) m
      (initSlab m slab memory objectSize objectsPerSlab) := by
  have stores : ∀ k, k + 8 ≤ sizeofSlab → ∀ (n : Memory) (x : Nat),
      ChangesOnly (Set.Ico slab (slab + sizeofSlab)) n (storeWord n (slab + k) x) := by
    intro k within n x
    refine (changesOnly_storeWord n (slab + k) x).mono fun b inside => ?_
    rw [Set.mem_Ico] at inside ⊢
    omega
  unfold initSlab
  exact ((((((stores 0 (by decide) m memory).trans (stores 8 (by decide) _ _)).trans
    (stores 16 (by decide) _ _)).trans (stores 24 (by decide) _ _)).trans
    (stores 32 (by decide) _ _)).trans (stores 40 (by decide) _ _)).trans
    (stores 48 (by decide) _ _)

/-- The first part of a creation: the block of the header was taken and set up. -/
structure HeaderSet (pool : PoolApi σ) (view : PoolView σ) (s : σ)
    (objectSize objectsPerSlab : Nat) (g : Grant) (s' : σ) : Prop where
  sound : view.Sound s'
  requested : g.requested = sizeofSlab
  grants : view.grants s' = g :: view.grants s
  keeps : Keeps pool view (view.grants s) s s'
  shape : SlabShape (pool.memory s') (.bare g objectSize objectsPerSlab)

/-- A block for the header is set up as a slab without pages. -/
theorem PoolContract.set_header (contract : PoolContract pool view) {s₁ : σ}
    (sound : view.Sound s₁) (keeps : Keeps pool view (view.grants s) s s₁)
    (held : view.grants s₁ = g :: view.grants s) (size : g.requested = sizeofSlab)
    (sizeWord : objectSize < 2 ^ 64) (countWord : objectsPerSlab < 2 ^ 64) (memory : Nat) :
    HeaderSet pool view s objectSize objectsPerSlab g
      (pool.setMemory s₁ (initSlab (pool.memory s₁) g.ptr memory objectSize objectsPerSlab)) := by
  have bounds := contract.bounds sound g (held ▸ List.mem_cons_self)
  have changes : ChangesOnly g.extent.bytes (pool.memory s₁)
      (initSlab (pool.memory s₁) g.ptr memory objectSize objectsPerSlab) := by
    refine (initSlab_changesOnly _ _ _ _ _).mono fun b inside => ?_
    rw [Set.mem_Ico] at inside
    rw [Extent.mem_bytes]
    unfold Grant.extent
    dsimp only
    omega
  obtain ⟨sound', grants⟩ := contract.write sound (held ▸ List.mem_cons_self) changes
  refine ⟨sound', size, grants.trans held, keeps.trans ?_, ?_⟩
  · refine contract.write_keeps sound (held ▸ List.mem_cons_self) (fun h member => ?_) changes
    refine ⟨held ▸ List.mem_cons_of_mem g member, ?_⟩
    rintro rfl
    exact contract.others_ne sound (List.Perm.of_eq held) g member rfl
  · rw [contract.memory_setMemory]
    exact initSlab_shape _ g memory sizeWord countWord

/-- A slab without pages is laid out. -/
theorem HeaderSet.slab (contract : PoolContract pool view)
    (header : HeaderSet pool view s objectSize objectsPerSlab g s')
    (arguments : SlabArguments objectSize objectsPerSlab) :
    SlabInv pool view s' (.bare g objectSize objectsPerSlab) (view.grants s) := by
  have bounds := contract.bounds header.sound g (header.grants ▸ List.mem_cons_self)
  have size := header.requested
  refine ⟨header.sound, header.grants ▸ .refl _, header.shape, ?_⟩
  constructor
  case size_ge => exact arguments.size_ge
  case some => exact arguments.some
  case fits => exact arguments.fits
  case header =>
    change sizeofSlab ≤ g.usable
    omega
  case page => exact fun p member => by cases member
  case requested => exact fun p member => by cases member
  case objects => exact fun p member => by cases member
  case apart => exact List.pairwise_singleton _ _
  case bounds =>
    intro h member
    rw [List.mem_singleton.mp member]
    exact ⟨bounds.1, bounds.2.2.2.2.1⟩
  case slots => exact .refl _

/-- The last part of `bc_allocators_slab_create`, once the first page was tried. -/
def finishCreate (pool : PoolApi σ) (slab : Nat) (page : σ × Bool) : σ × PtrResult :=
  if page.2 = false then (pool.free page.1 slab, .failed) else (page.1, ⟨true, slab⟩)

/-- An addition of a page relies on the calls before it. -/
theorem PoolContract.trusted_page (contract : PoolContract pool view) {slab : Nat}
    (trusted : view.Trusted (allocateNewPage pool s slab).1) : view.Trusted s := by
  unfold allocateNewPage at trusted
  dsimp only at trusted
  split at trusted
  · exact contract.trusted_allocate trusted
  · split at trusted
    · have second := contract.trusted_free.mp trusted
      exact contract.trusted_allocate (contract.trusted_allocate second)
    · have second := contract.trusted_setMemory.mp trusted
      exact contract.trusted_allocate (contract.trusted_allocate second)

/-- A creation with too small objects or none fails at once. -/
theorem slabCreate_invalid (s : σ) (memory : Nat)
    (invalid : ¬ (8 ≤ objectSize ∧ 1 ≤ objectsPerSlab)) :
    slabCreate pool s memory objectSize objectsPerSlab = (s, .failed) := by
  unfold slabCreate
  exact if_pos (by omega)

/-- **A creation begins with its header**: it fails there and takes nothing, or goes
on to its first page. -/
theorem slabCreate_begins (contract : PoolContract pool view) (sound : view.Sound s)
    (sizeWord : objectSize < 2 ^ 64) (countWord : objectsPerSlab < 2 ^ 64)
    (trusted : view.Trusted (slabCreate pool s memory objectSize objectsPerSlab).1) :
    (slabCreate pool s memory objectSize objectsPerSlab).2 = .failed ∧
        NothingTaken pool view s (slabCreate pool s memory objectSize objectsPerSlab).1 ∨
      ∃ g s₁, HeaderSet pool view s objectSize objectsPerSlab g s₁ ∧
        view.Trusted (allocateNewPage pool s₁ g.ptr).1 ∧
        slabCreate pool s memory objectSize objectsPerSlab =
          finishCreate pool g.ptr (allocateNewPage pool s₁ g.ptr) := by
  by_cases valid : 8 ≤ objectSize ∧ 1 ≤ objectsPerSlab
  case neg =>
    rw [slabCreate_invalid s memory valid]
    exact Or.inl ⟨rfl, sound, rfl, Keeps.refl s⟩
  unfold slabCreate at trusted ⊢
  rw [if_neg (by omega)] at trusted ⊢
  dsimp only at trusted ⊢
  by_cases refused : (pool.allocate s sizeofSlab).2.ok = false
  · rw [if_pos refused] at trusted ⊢
    obtain ⟨sound₁, keeps₁, outcome₁⟩ := contract.allocate sound (by decide) trusted
    rcases outcome₁ with ⟨_, same⟩ | ⟨header, granted, _⟩
    · exact Or.inl ⟨rfl, sound₁, same, keeps₁⟩
    · rw [granted] at refused
      simp at refused
  rw [if_neg refused] at trusted ⊢
  -- the trust of the call is that of its last step, and so of the first
  have page : view.Trusted (allocateNewPage pool (pool.setMemory (pool.allocate s sizeofSlab).1
      (initSlab (pool.memory (pool.allocate s sizeofSlab).1) (pool.allocate s sizeofSlab).2.out
        memory objectSize objectsPerSlab)) (pool.allocate s sizeofSlab).2.out).1 := by
    split at trusted
    · exact contract.trusted_free.mp trusted
    · exact trusted
  have first := contract.trusted_setMemory.mp (contract.trusted_page page)
  obtain ⟨sound₁, keeps₁, outcome₁⟩ := contract.allocate sound (by decide) first
  rcases outcome₁ with ⟨failed, _⟩ | ⟨header, granted, size, grants⟩
  · rw [failed] at refused
    exact absurd rfl refused
  rw [granted] at page ⊢
  have set := contract.set_header sound₁ keeps₁ grants size sizeWord countWord memory
  exact Or.inr ⟨header, _, set, page, rfl⟩

/-- A slab was created: three blocks were taken, and it has one page with every
slot free. -/
structure SlabCreated (pool : PoolApi σ) (view : PoolView σ) (s s' : σ)
    (objectSize objectsPerSlab : Nat) (v : SlabView) : Prop where
  objectSize : v.objectSize = objectSize
  objectsPerSlab : v.objectsPerSlab = objectsPerSlab
  live : v.live = []
  page : ∃ p, v.pages = [p] ∧
    view.grants s' = p.objects :: p.page :: v.header :: view.grants s
  inv : SlabInv pool view s' v (view.grants s)

/-- **`bc_allocators_slab_create`** fails and takes nothing, or creates a slab. -/
theorem slabCreate_spec (contract : PoolContract pool view) (sound : view.Sound s)
    (fits : objectsPerSlab * objectSize < 2 ^ 64)
    (trusted : view.Trusted (slabCreate pool s memory objectSize objectsPerSlab).1) :
    (slabCreate pool s memory objectSize objectsPerSlab).2 = .failed ∧
        NothingTaken pool view s (slabCreate pool s memory objectSize objectsPerSlab).1 ∨
      ∃ v, (slabCreate pool s memory objectSize objectsPerSlab).2 = ⟨true, v.address⟩ ∧
        SlabCreated pool view s (slabCreate pool s memory objectSize objectsPerSlab).1 objectSize
          objectsPerSlab v := by
  by_cases valid : 8 ≤ objectSize ∧ 1 ≤ objectsPerSlab
  case neg =>
    rw [slabCreate_invalid s memory valid]
    exact Or.inl ⟨rfl, sound, rfl, Keeps.refl s⟩
  have arguments : SlabArguments objectSize objectsPerSlab := ⟨valid.1, valid.2, fits⟩
  rcases slabCreate_begins contract sound arguments.words.1 arguments.words.2 trusted with
    failed | ⟨g, s₁, header, page, same⟩
  · exact Or.inl failed
  have bare := header.slab contract arguments
  rw [same]
  unfold finishCreate
  rcases allocateNewPage_spec contract bare page with ⟨failed, nothing⟩ | ⟨added, p, first⟩
  · left
    rw [if_pos (show (allocateNewPage pool s₁ g.ptr).2 = false from failed)]
    obtain ⟨sound₃, grants₃, keeps₃⟩ := contract.give_back nothing.sound
      (nothing.grants.trans header.grants)
    refine ⟨rfl, sound₃, grants₃, (header.keeps.trans (nothing.keeps.mono ?_)).trans keeps₃⟩
    rw [header.grants]
    exact fun h member => List.mem_cons_of_mem g member
  · right
    rw [if_neg (show ¬ (allocateNewPage pool s₁ g.ptr).2 = false by
      rw [show (allocateNewPage pool s₁ g.ptr).2 = true from added]; simp)]
    exact ⟨_, rfl, rfl, rfl, rfl, ⟨p, rfl, first.grants.trans (by rw [header.grants]; rfl)⟩,
      first.inv⟩

/-! ## Destruction -/

/-- A release takes back one block and keeps the others. -/
theorem PoolContract.free_one (contract : PoolContract pool view) (sound : view.Sound s)
    (held : (view.grants s).Perm (g :: gs)) :
    view.Sound (pool.free s g.ptr) ∧ (view.grants (pool.free s g.ptr)).Perm gs ∧
      Keeps pool view gs s (pool.free s g.ptr) := by
  obtain ⟨freed, grants, keeps⟩ :=
    contract.free sound (held.mem_iff.mpr List.mem_cons_self)
  have left : (dropGrant (view.grants s) g.ptr).Perm gs := by
    have dropped := dropGrant_cons (contract.others_ne sound held)
    exact (held.filter _).trans (.of_eq dropped)
  refine ⟨freed, grants ▸ left, keeps.mono fun h member => ?_⟩
  exact left.mem_iff.mpr member

/-- Releases take back their blocks and keep the others. -/
theorem PoolContract.free_all (contract : PoolContract pool view) {rest : List Grant} :
    ∀ {s : σ}, view.Sound s → (view.grants s).Perm (gs ++ rest) →
      view.Sound ((gs.map Grant.ptr).foldl pool.free s) ∧
        (view.grants ((gs.map Grant.ptr).foldl pool.free s)).Perm rest ∧
        Keeps pool view rest s ((gs.map Grant.ptr).foldl pool.free s) := by
  induction gs with
  | nil =>
      intro s sound held
      exact ⟨sound, held, Keeps.refl s⟩
  | cons g gs ih =>
      intro s sound held
      obtain ⟨freed, left, keeps⟩ := contract.free_one sound held
      obtain ⟨sound', held', keeps'⟩ := ih freed left
      refine ⟨sound', held', (keeps.mono fun h member => ?_).trans keeps'⟩
      exact List.mem_append_right gs member

/-- The words of a page that is kept. -/
theorem Keeps.page {others : List Grant} (keeps : Keeps pool view others s s') {p : SlabPage}
    (member : p.page ∈ others) (room : sizeofSlabPage ≤ p.page.usable) {k : Nat}
    (within : k + 8 ≤ sizeofSlabPage) :
    loadWord (pool.memory s') (p.page.ptr + k) = loadWord (pool.memory s) (p.page.ptr + k) := by
  refine loadWord_congr fun b lower upper => keeps.block member b ?_
  rw [Extent.mem_bytes]
  unfold Grant.extent
  dsimp only
  omega

/-- **The loop of the destruction** frees the blocks of the pages, each page after
its objects. -/
theorem destroyPages_spec (contract : PoolContract pool view) {rest : List Grant}
    {pages : List SlabPage} :
    ∀ {s : σ} {start fuel : Nat}, view.Sound s →
      (view.grants s).Perm (pages.flatMap SlabPage.grants ++ rest) →
      Linked (pageNext (pool.memory s)) start (pages.map fun p => p.page.ptr) →
      (∀ p ∈ pages, pageObjects (pool.memory s) p.page.ptr = p.objects.ptr ∧
        sizeofSlabPage ≤ p.page.usable) →
      pages.length < fuel →
      destroyPages pool fuel s start =
        some (((pages.flatMap SlabPage.grants).map Grant.ptr).foldl pool.free s) := by
  induction pages with
  | nil =>
      intro s start fuel _ _ linked _ enough
      obtain ⟨steps, rfl⟩ := Nat.exists_eq_add_of_lt enough
      have null : start = NULL := linked
      unfold destroyPages
      exact if_pos null
  | cons p pages ih =>
      intro s start fuel sound held linked fields enough
      obtain ⟨rfl, address, behind⟩ := linked
      obtain ⟨objects, _⟩ := fields p List.mem_cons_self
      obtain ⟨steps, rfl⟩ : ∃ steps, fuel = steps + 1 :=
        ⟨fuel - 1, by rw [List.length_cons] at enough; omega⟩
      -- the two releases leave the pages behind this one alone
      have split : (view.grants s).Perm
          (p.grants ++ (pages.flatMap SlabPage.grants ++ rest)) := by
        rwa [List.flatMap_cons, List.append_assoc] at held
      obtain ⟨freed, left, keeps⟩ := contract.free_all sound split
      have words : ∀ q ∈ pages, ∀ k, k + 8 ≤ sizeofSlabPage →
          loadWord (pool.memory ((p.grants.map Grant.ptr).foldl pool.free s)) (q.page.ptr + k) =
            loadWord (pool.memory s) (q.page.ptr + k) := by
        intro q member k within
        refine keeps.page (List.mem_append_left rest ?_) (fields q (by simp [member])).2 within
        exact List.mem_flatMap.mpr ⟨q, member, by simp [SlabPage.grants]⟩
      have linked' : Linked
          (pageNext (pool.memory ((p.grants.map Grant.ptr).foldl pool.free s)))
          (pageNext (pool.memory s) p.page.ptr) (pages.map fun p => p.page.ptr) := by
        refine behind.congr fun a member => ?_
        obtain ⟨q, inPages, rfl⟩ := List.mem_map.mp member
        exact words q inPages 8 (by decide)
      have fewer : pages.length < steps := by
        rw [List.length_cons] at enough
        omega
      have rest' := ih freed left linked' (fun q member =>
        ⟨(words q member 0 (by decide)).trans (fields q (by simp [member])).1,
          (fields q (by simp [member])).2⟩) fewer
      rw [List.flatMap_cons, List.map_append, List.foldl_append]
      unfold destroyPages
      dsimp only
      rw [if_neg (show ¬ p.page.ptr = NULL from address), objects]
      exact rest'

/-- The pointers of the blocks of a slab, in the order in which they are freed. -/
def SlabView.freed (v : SlabView) : List Nat :=
  ((v.pages.flatMap SlabPage.grants).map Grant.ptr) ++ [v.address]

/-- **`bc_allocators_slab_destroy`** frees each block of the slab once, and nothing
else. -/
theorem slabDestroy_spec (contract : PoolContract pool view)
    (inv : SlabInv pool view s v others) :
    slabDestroy pool s v.address = some (v.freed.foldl pool.free s) ∧
      v.freed.Perm (v.grants.map Grant.ptr) ∧
      view.Sound (v.freed.foldl pool.free s) ∧
      (view.grants (v.freed.foldl pool.free s)).Perm others ∧
      Keeps pool view others s (v.freed.foldl pool.free s) := by
  have perm : ((v.pages.flatMap SlabPage.grants) ++ [v.header]).Perm v.grants :=
    List.perm_append_singleton _ _
  have blocks : v.freed = ((v.pages.flatMap SlabPage.grants) ++ [v.header]).map Grant.ptr := by
    rw [List.map_append]
    rfl
  have held : (view.grants s).Perm
      (v.pages.flatMap SlabPage.grants ++ v.header :: others) :=
    inv.held.trans List.perm_middle.symm
  have loop := destroyPages_spec contract inv.sound held inv.shape.pages
    (fun p member => ⟨inv.shape.objects p member, inv.layout.page p member⟩)
    inv.layout.pages_length_lt
  refine ⟨?_, blocks ▸ perm.map Grant.ptr, ?_⟩
  · unfold slabDestroy
    rw [loop]
    dsimp only
    unfold SlabView.freed
    rw [List.foldl_append]
    rfl
  · rw [blocks]
    exact contract.free_all inv.sound (inv.held.trans (perm.symm.append_right others))

end BcAllocators
