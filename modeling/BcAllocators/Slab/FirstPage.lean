import BcAllocators.Pool.Grants
import BcAllocators.Slab.Client

/-!
# The first page of a slab

A creation that succeeds makes three requests: for the header, which it sets up, for a
page, and for the block of the objects (`slabCreate_requests`). The third is for the product
of the two sizes modulo `2 ^ 64`, and what the pool hands out for it becomes the slots,
whether or not it is large enough (`slabCreate_firstPage`).
-/

set_option autoImplicit false

namespace BcAllocators

open Machine

variable {objectSize objectsPerSlab : Nat}

/-! ## The requests of a creation -/

/-- The requests that a successful addition of a page made: for the page, and for the
block of the objects, which is filled. -/
structure PageRequests {σ : Type} (pool : PoolApi σ) (s : σ) (slab page : Nat) (before : σ)
    (asked ptr : Nat) (after : σ) (result : σ) : Prop where
  begins : pool.allocate s sizeofSlabPage = (before, ⟨true, page⟩)
  product : asked = wmul (slabObjectsPerSlab (pool.memory before) slab)
    (slabObjectSize (pool.memory before) slab)
  granted : pool.allocate before asked = (after, ⟨true, ptr⟩)
  fills : result = pool.setMemory after
    (fillPage (linkPage (pool.memory after) slab page ptr) slab ptr)

section Requests

variable {σ : Type} {pool : PoolApi σ} {s : σ} {memory : Nat}

theorem allocateNewPage_requests {slab : Nat} (added : (allocateNewPage pool s slab).2 = true) :
    ∃ page before asked ptr after, PageRequests pool s slab page before asked ptr after
      (allocateNewPage pool s slab).1 := by
  rcases first : pool.allocate s sizeofSlabPage with ⟨before, ⟨_ | _, page⟩⟩
  · simp only [allocateNewPage, first] at added
    cases added
  rcases second : pool.allocate before (wmul (slabObjectsPerSlab (pool.memory before) slab)
    (slabObjectSize (pool.memory before) slab)) with ⟨after, ⟨_ | _, ptr⟩⟩
  · simp only [allocateNewPage, first, second] at added
    cases added
  simp only [allocateNewPage, first, second]
  exact ⟨page, before, _, ptr, after, first, rfl, second, rfl⟩

/-- **A creation that succeeds** took a block for the header, set it up and added a
page. -/
theorem slabCreate_requests
    (ok : (slabCreate pool s memory objectSize objectsPerSlab).2.ok = true) :
    ∃ s₁ header page before asked ptr after result,
      pool.allocate s sizeofSlab = (s₁, ⟨true, header⟩) ∧
      PageRequests pool (pool.setMemory s₁
          (initSlab (pool.memory s₁) header memory objectSize objectsPerSlab))
        header page before asked ptr after result ∧
      slabCreate pool s memory objectSize objectsPerSlab = (result, ⟨true, header⟩) := by
  by_cases valid : 8 ≤ objectSize ∧ 1 ≤ objectsPerSlab
  case neg =>
    rw [slabCreate_invalid s memory valid] at ok
    cases ok
  rcases first : pool.allocate s sizeofSlab with ⟨s₁, ⟨_ | _, header⟩⟩
  · simp only [slabCreate, first, if_neg (show ¬ (objectSize < 8 ∨ objectsPerSlab = 0) by omega)]
      at ok
    cases ok
  simp only [slabCreate, first, if_neg (show ¬ (objectSize < 8 ∨ objectsPerSlab = 0) by omega),
    if_neg (show ¬ (true = false) by decide)] at ok ⊢
  have added : (allocateNewPage pool (pool.setMemory s₁
      (initSlab (pool.memory s₁) header memory objectSize objectsPerSlab)) header).2 = true := by
    by_contra failed
    rw [if_pos (Bool.eq_false_of_not_eq_true failed)] at ok
    cases ok
  rw [if_neg (by rw [added]; exact Bool.noConfusion)]
  obtain ⟨page, before, asked, ptr, after, requests⟩ := allocateNewPage_requests added
  exact ⟨s₁, header, page, before, asked, ptr, after, _, rfl, requests, rfl⟩

end Requests

/-! ## The first page -/

section FirstPage

variable {core : BcCore} {platform : Platform} {s : PoolState} {memory : Nat}

/-- The slots of a new page, pushed one after the other behind the first. -/
def pushedSlots (m : Memory) (header page objects objectSize count : Nat) : Memory :=
  pushSlots (listPush (linkPage m header page objects) (header + 24) objects) (header + 24) objects
    objectSize (List.range' 1 (count - 1))

/-- A successful creation took the block for the objects of its first page, after the
header and the page, and pushed the slots of it. -/
structure FirstPage (core : BcCore) (s : PoolState) (memory objectSize objectsPerSlab : Nat)
    (objects : Grant) : Prop where
  requested : objects.requested = wmul objectsPerSlab objectSize
  filled : ∃ c₁ header page before after result,
    (clientApi core).allocate ⟨s, true⟩ sizeofSlab = (c₁, ⟨true, header⟩) ∧
    PageRequests (clientApi core) ((clientApi core).setMemory c₁
        (initSlab c₁.state.world.mem header memory objectSize objectsPerSlab))
      header page before objects.requested objects.ptr after result ∧
    objects ∈ after.state.grants core ∧
    result = (clientApi core).setMemory after
      (pushedSlots after.state.world.mem header page objects.ptr objectSize objectsPerSlab) ∧
    slabCreate (clientApi core) ⟨s, true⟩ memory objectSize objectsPerSlab =
      (result, ⟨true, header⟩)

/-- The fields of a header that was set up, in a memory that keeps the bytes of its
block. -/
theorem HeaderSet.fields {σ : Type} {pool : PoolApi σ} {view : PoolView σ} {s s₁ : σ}
    {g : Grant} (header : HeaderSet pool view s objectSize objectsPerSlab g s₁) {m : Memory}
    (kept : ∀ a ∈ Set.Ico (g.ptr + 8) (g.ptr + 24), m a = pool.memory s₁ a) :
    slabObjectSize m g.ptr = objectSize ∧ slabObjectsPerSlab m g.ptr = objectsPerSlab := by
  have word : ∀ k, 8 ≤ k → k + 8 ≤ 24 →
      loadWord m (g.ptr + k) = loadWord (pool.memory s₁) (g.ptr + k) := by
    intro k lower upper
    refine loadWord_congr fun b above below => kept b ?_
    rw [Set.mem_Ico]
    omega
  exact ⟨(word 8 (by decide) (by decide)).trans header.shape.objectSize,
    (word 16 (by decide) (by decide)).trans header.shape.objectsPerSlab⟩

/-- The loop pushes the slots of the sizes in the header, when the stores in front of it
leave them alone. -/
theorem fillPage_pushed {m : Memory} {header page objects : Nat}
    (pageApart : page + sizeofSlabPage ≤ header + 8 ∨ header + 24 ≤ page)
    (objectsApart : objects + 8 ≤ header + 8 ∨ header + 24 ≤ objects)
    (size : slabObjectSize m header = objectSize)
    (count : slabObjectsPerSlab m header = objectsPerSlab) :
    fillPage (linkPage m header page objects) header objects =
      pushedSlots m header page objects objectSize objectsPerSlab := by
  have changes : ChangesOnly {a | ¬ a ∈ Set.Ico (header + 8) (header + 24)} m
      (listPush (linkPage m header page objects) (header + 24) objects) := by
    unfold listPush
    refine (((linkPage_changesOnly m header page objects).mono ?_).trans
      ((changesOnly_storeWord _ _ _).mono ?_)).trans ((changesOnly_storeWord _ _ _).mono ?_) <;>
    · intro a inside
      simp only [Set.mem_union, Set.mem_Ico, Set.mem_ofPred_eq] at inside ⊢
      omega
  have word : ∀ k, 8 ≤ k → k + 8 ≤ 24 →
      loadWord (listPush (linkPage m header page objects) (header + 24) objects) (header + k) =
        loadWord m (header + k) := by
    intro k lower upper
    refine changes.loadWord fun b above below => ?_
    simp only [Set.mem_Ico, Set.mem_ofPred_eq]
    omega
  have sizes : slabObjectSize (listPush (linkPage m header page objects) (header + 24) objects)
      header = objectSize := (word 8 (by decide) (by decide)).trans size
  have counts : slabObjectsPerSlab (listPush (linkPage m header page objects) (header + 24)
      objects) header = objectsPerSlab := (word 16 (by decide) (by decide)).trans count
  unfold fillPage pushedSlots
  dsimp only
  rw [sizes, counts]

/-- The fields of a header lie in its block. -/
theorem Grant.fields_inside {g : Grant} (room : sizeofSlab ≤ g.usable) :
    ∀ a ∈ Set.Ico (g.ptr + 8) (g.ptr + 24), a ∈ g.extent.bytes := by
  intro a inside
  unfold sizeofSlab at room
  rw [Set.mem_Ico] at inside
  rw [Extent.mem_bytes]
  unfold Grant.extent
  dsimp only
  omega

/-- **A creation that succeeds has filled a first page**, from the block that the pool
handed out for it. -/
theorem slabCreate_firstPage {books : Option Balance}
    (sound : ClientSound core platform s.world.ctx.region.addresses books s)
    (sizeWord : objectSize < 2 ^ 64) (countWord : objectsPerSlab < 2 ^ 64)
    (ok : (slabCreate (clientApi core) ⟨s, true⟩ memory objectSize objectsPerSlab).2.ok = true) :
    (wmul objectsPerSlab objectSize ≤ s.world.ctx.region.totalSize →
        (slabCreate (clientApi core) ⟨s, true⟩ memory objectSize objectsPerSlab).1.faithful =
          true) ∧
      ∃ objects before after, FirstPage core s memory objectSize objectsPerSlab objects ∧
        Handed core s.world.ctx.region before (wmul objectsPerSlab objectSize) after
          objects := by
  have contract := pool_contract core platform s.world.ctx.region.addresses books
  obtain ⟨c₁, header, page, before, asked, ptr, after, result, first, requests, same⟩ :=
    slabCreate_requests ok
  have start : ClientSound core platform s.world.ctx.region.addresses books
      (ClientPool.mk s true).state := sound
  -- the header and the page are small requests
  obtain ⟨g, rfl, took₁⟩ := start.took rfl (show sizeofSlab ≤ maxClassSize by decide) first
  have set := contract.set_header took₁.sound took₁.keeps took₁.grants took₁.requested sizeWord
    countWord memory
  obtain ⟨p, rfl, took₂⟩ := ClientSound.took set.sound took₁.faithful
    (show sizeofSlabPage ≤ maxClassSize by decide) requests.begins
  have inSet : g ∈ ((clientApi core).setMemory c₁ (initSlab ((clientApi core).memory c₁) g.ptr
      memory objectSize objectsPerSlab)).state.grants core :=
    List.mem_of_mem_head? (congrArg List.head? set.grants)
  have inBefore : g ∈ before.state.grants core := by
    rw [took₂.grants]
    exact List.mem_cons_of_mem p inSet
  have pInBefore : p ∈ before.state.grants core := by
    rw [took₂.grants]
    exact List.mem_cons_self
  obtain ⟨_, _, room, _, _, territory⟩ := contract.bounds took₂.sound g inBefore
  have fields := Grant.fields_inside (took₁.requested ▸ room)
  have pos : 0 < s.world.ctx.region.totalSize := by
    have inside := territory (fields (g.ptr + 8) ⟨Nat.le_refl _, by omega⟩)
    have above := inside.1
    have below := inside.2
    omega
  -- the block of the objects is requested with the product of the fields
  obtain ⟨size, count⟩ := set.fields fun a inside => took₂.keeps.block inSet a (fields a inside)
  have product : asked = wmul objectsPerSlab objectSize :=
    requests.product.trans (by rw [size, count])
  obtain ⟨objects, rfl, handed⟩ := took₂.sound.handed took₂.faithful pos
    (product ▸ wmul_lt _ _) requests.granted
  refine ⟨fun within => ?_, objects, before, after, ⟨handed.requested.trans product, ?_⟩,
    product ▸ handed⟩
  · have total := Region.totalSize_eq took₂.sound.home
    rw [← product, ← total] at within
    have trusted : ((clientApi core).allocate before asked).1.faithful = true :=
      Bool.and_eq_true_iff.mpr ⟨took₂.faithful, keepsWithin_of_le within _⟩
    rw [requests.granted] at trusted
    rw [same, requests.fills, faithful_setMemory]
    exact trusted
  refine ⟨c₁, g.ptr, p.ptr, before, after, result, first, handed.requested.symm ▸ requests,
    handed.member, requests.fills.trans (congrArg _ ?_), same⟩
  obtain ⟨size', count'⟩ := set.fields (m := after.state.world.mem) fun a inside =>
    (handed.kept g inBefore a (fields a inside)).trans
      (took₂.keeps.block inSet a (fields a inside))
  refine fillPage_pushed ?_ ?_ size' count'
  · have pairwise := contract.apart took₂.sound
    rw [show (clientView core platform s.world.ctx.region.addresses books).grants before = _ from
      took₂.grants, List.map_cons] at pairwise
    have apart := (List.pairwise_cons.mp pairwise).1 _ (List.mem_map_of_mem inSet)
    have room' := (contract.bounds took₂.sound p pInBefore).2.2.1
    rw [took₂.requested] at room'
    rw [took₁.requested] at room
    unfold Extent.Apart Extent.stop Grant.extent at apart
    unfold sizeofSlab sizeofSlabPage at *
    dsimp only at apart
    omega
  · have apart := handed.apart g inBefore
    rw [took₁.requested] at room
    unfold Extent.stop Grant.extent at apart
    unfold sizeofSlab at room
    dsimp only at apart
    omega

end FirstPage

end BcAllocators
