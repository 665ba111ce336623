import BcAllocators.Lib.Stack
import BcAllocators.Slab.Allocator

/-!
# What a slab is

A slab seen as data: the block of its header, its pages, each with the block of
its objects, and its slots, some of them free and the others live. `SlabShape`
says that a memory represents such a slab: the fields of the header, the list of
pages, and the free list threaded through the free slots. `SlabLayout` says where
the blocks and the slots are, with no reference to a memory: the blocks are
apart, each page has its slots inside its block, and every slot is free or live,
exactly once.

The memory is read at the header, the pages and the links of the free slots
(`SlabView.Reads`), so whatever changes other bytes keeps the shape
(`SlabShape.congr`).
-/

set_option autoImplicit false

namespace BcAllocators

open Machine

/-- A page, and the block of its objects. -/
structure SlabPage where
  page : Grant
  objects : Grant

/-- A slab as data. -/
structure SlabView where
  header : Grant
  objectSize : Nat
  objectsPerSlab : Nat
  pages : List SlabPage
  free : List Nat
  live : List Nat

namespace SlabPage

/-- The blocks of a page, in the order in which a destruction frees them. -/
def grants (p : SlabPage) : List Grant := [p.objects, p.page]

/-- The slots of a page. -/
def slots (objectSize objectsPerSlab : Nat) (p : SlabPage) : List Nat :=
  (List.range objectsPerSlab).map fun i => p.objects.ptr + i * objectSize

end SlabPage

namespace SlabView

variable (v : SlabView)

/-- The address of the slab. -/
def address : Nat := v.header.ptr

/-- All blocks of the slab. -/
def grants : List Grant := v.header :: v.pages.flatMap SlabPage.grants

/-- All slots of the slab. -/
def slots : List Nat := v.pages.flatMap (SlabPage.slots v.objectSize v.objectsPerSlab)

/-- The addresses at which the slab is read. -/
def Reads (a : Nat) : Prop :=
  a ∈ Set.Ico v.address (v.address + sizeofSlab) ∨
    (∃ p ∈ v.pages, a ∈ Set.Ico p.page.ptr (p.page.ptr + sizeofSlabPage)) ∨
    ∃ f ∈ v.free, a ∈ Set.Ico f (f + 8)

end SlabView

/-- A memory represents the slab. -/
structure SlabShape (m : Memory) (v : SlabView) : Prop where
  objectSize : slabObjectSize m v.address = v.objectSize
  objectsPerSlab : slabObjectsPerSlab m v.address = v.objectsPerSlab
  free : Stack m (v.address + 24) v.free
  pages : Linked (pageNext m) (slabPages m v.address) (v.pages.map fun p => p.page.ptr)
  objects : ∀ p ∈ v.pages, pageObjects m p.page.ptr = p.objects.ptr
  slabCount : slabCount m v.address = v.pages.length
  usedObjects : slabUsedObjects m v.address = v.live.length

/-- Where the blocks and the slots of a slab are. -/
structure SlabLayout (v : SlabView) : Prop where
  size_ge : 8 ≤ v.objectSize
  some : 1 ≤ v.objectsPerSlab
  fits : v.objectsPerSlab * v.objectSize < 2 ^ 64
  header : sizeofSlab ≤ v.header.usable
  page : ∀ p ∈ v.pages, sizeofSlabPage ≤ p.page.usable
  requested : ∀ p ∈ v.pages, p.objects.requested = v.objectsPerSlab * v.objectSize
  objects : ∀ p ∈ v.pages, v.objectsPerSlab * v.objectSize ≤ p.objects.usable
  apart : v.grants.Pairwise fun g h => g.extent.Apart h.extent
  bounds : ∀ g ∈ v.grants, 0 < g.ptr ∧ g.extent.stop < 2 ^ 64
  slots : (v.free ++ v.live).Perm v.slots

/-! ## Frames -/

/-- **The shape of a slab is read at its own addresses.** -/
theorem SlabShape.congr {m m' : Memory} {v : SlabView} (shape : SlabShape m v)
    (same : ∀ a, v.Reads a → m' a = m a) : SlabShape m' v := by
  have field : ∀ k, k + 8 ≤ sizeofSlab → loadWord m' (v.address + k) = loadWord m (v.address + k) :=
    fun k small => loadWord_congr fun b lower upper =>
      same b (Or.inl ⟨by omega, by omega⟩)
  have pageField : ∀ p ∈ v.pages, ∀ k, k + 8 ≤ sizeofSlabPage →
      loadWord m' (p.page.ptr + k) = loadWord m (p.page.ptr + k) :=
    fun p member k small => loadWord_congr fun b lower upper =>
      same b (Or.inr (Or.inl ⟨p, member, by omega, by omega⟩))
  have fits : ∀ k ∈ [0, 8, 16, 24, 32, 40, 48], k + 8 ≤ sizeofSlab := by decide
  constructor
  case objectSize => exact (field 8 (fits 8 (by simp))).trans shape.objectSize
  case objectsPerSlab => exact (field 16 (fits 16 (by simp))).trans shape.objectsPerSlab
  case slabCount => exact (field 40 (fits 40 (by simp))).trans shape.slabCount
  case usedObjects => exact (field 48 (fits 48 (by simp))).trans shape.usedObjects
  case free =>
    refine shape.free.congr fun a member b lower upper => same b ?_
    rcases List.mem_cons.mp member with rfl | inFree
    · refine Or.inl ⟨by omega, ?_⟩
      unfold sizeofSlab
      omega
    · exact Or.inr (Or.inr ⟨a, inFree, lower, upper⟩)
  case pages =>
    have start : slabPages m' v.address = slabPages m v.address := field 32 (fits 32 (by simp))
    rw [start]
    refine shape.pages.congr fun a member => ?_
    obtain ⟨p, inPages, rfl⟩ := List.mem_map.mp member
    exact pageField p inPages 8 (Nat.le_refl _)
  case objects =>
    intro p member
    exact (pageField p member 0 (Nat.le_add_left 8 8)).trans (shape.objects p member)

/-! ## Blocks -/

namespace SlabLayout

variable {v : SlabView} {p q : SlabPage} {a b : Nat}

theorem mem_grants_page (member : p ∈ v.pages) : p.page ∈ v.grants :=
  List.mem_cons_of_mem _ (List.mem_flatMap.mpr ⟨p, member, by simp [SlabPage.grants]⟩)

theorem mem_grants_objects (member : p ∈ v.pages) : p.objects ∈ v.grants :=
  List.mem_cons_of_mem _ (List.mem_flatMap.mpr ⟨p, member, by simp [SlabPage.grants]⟩)

/-- The header is apart from the blocks of the pages. -/
theorem header_apart (layout : SlabLayout v) (member : p ∈ v.pages) :
    v.header.extent.Apart p.page.extent ∧ v.header.extent.Apart p.objects.extent := by
  have first := (List.pairwise_cons.mp layout.apart).1
  exact ⟨first p.page (List.mem_flatMap.mpr ⟨p, member, by simp [SlabPage.grants]⟩),
    first p.objects (List.mem_flatMap.mpr ⟨p, member, by simp [SlabPage.grants]⟩)⟩

/-- The pages are apart, and so are the blocks of their objects. -/
theorem pages_pairwise (layout : SlabLayout v) :
    v.pages.Pairwise fun p q => p.page.extent.Apart q.page.extent ∧
      p.objects.extent.Apart q.objects.extent ∧ p.page.extent.Apart q.objects.extent ∧
      p.objects.extent.Apart q.page.extent := by
  have rest := (List.pairwise_flatMap.mp (List.pairwise_cons.mp layout.apart).2).2
  refine rest.imp fun {p q} apart => ?_
  exact ⟨apart p.page (by simp [SlabPage.grants]) q.page (by simp [SlabPage.grants]),
    apart p.objects (by simp [SlabPage.grants]) q.objects (by simp [SlabPage.grants]),
    apart p.page (by simp [SlabPage.grants]) q.objects (by simp [SlabPage.grants]),
    apart p.objects (by simp [SlabPage.grants]) q.page (by simp [SlabPage.grants])⟩

/-- The block of a page is apart from the objects of every page. -/
theorem page_apart_objects (layout : SlabLayout v) (hp : p ∈ v.pages) (hq : q ∈ v.pages) :
    p.page.extent.Apart q.objects.extent := by
  have own := (List.pairwise_flatMap.mp (List.pairwise_cons.mp layout.apart).2).1
  by_cases same : p = q
  · subst same
    have pair := own p hp
    simp only [SlabPage.grants, List.pairwise_cons] at pair
    exact (pair.1 p.page (by simp)).symm
  · have symmetric : Std.Symm fun p q : SlabPage => p.page.extent.Apart q.page.extent ∧
        p.objects.extent.Apart q.objects.extent ∧ p.page.extent.Apart q.objects.extent ∧
        p.objects.extent.Apart q.page.extent :=
      ⟨fun _ _ h => ⟨h.1.symm, h.2.1.symm, h.2.2.2.symm, h.2.2.1.symm⟩⟩
    exact (layout.pages_pairwise.forall hp hq same).2.2.1

/-! ## Slots -/

theorem mem_pageSlots {size n : Nat} :
    a ∈ p.slots size n ↔ ∃ i < n, a = p.objects.ptr + i * size := by
  simp only [SlabPage.slots, List.mem_map, List.mem_range, eq_comm]

theorem mem_slots : a ∈ v.slots ↔ ∃ p ∈ v.pages, a ∈ p.slots v.objectSize v.objectsPerSlab :=
  List.mem_flatMap

/-- The slots of a page start one object size after the other. -/
theorem pageSlots_pairwise (p : SlabPage) (size n : Nat) :
    (p.slots size n).Pairwise fun a b => a + size ≤ b := by
  refine List.pairwise_map.mpr (List.pairwise_lt_range.imp fun {i j} less => ?_)
  have next := Nat.mul_le_mul_right size (Nat.succ_le_of_lt less)
  rw [Nat.succ_mul] at next
  omega

/-- A slot lies in the block of its page. -/
theorem slot_inside (layout : SlabLayout v) (member : p ∈ v.pages)
    (slot : a ∈ p.slots v.objectSize v.objectsPerSlab) :
    p.objects.ptr ≤ a ∧ a + v.objectSize ≤ p.objects.extent.stop := by
  obtain ⟨i, small, rfl⟩ := mem_pageSlots.mp slot
  have room := layout.objects p member
  have next := Nat.mul_le_mul_right v.objectSize (Nat.succ_le_of_lt small)
  rw [Nat.succ_mul] at next
  refine ⟨Nat.le_add_right _ _, ?_⟩
  unfold Extent.stop Grant.extent
  dsimp only
  omega

/-- **Slots are apart**, in one page or in several. -/
theorem slots_pairwise (layout : SlabLayout v) :
    v.slots.Pairwise fun a b => a + v.objectSize ≤ b ∨ b + v.objectSize ≤ a := by
  refine List.pairwise_flatMap.mpr ⟨fun p _ => ?_, ?_⟩
  · exact (pageSlots_pairwise p _ _).imp Or.inl
  · refine layout.pages_pairwise.imp_of_mem fun {p q} hp hq apart a ha b hb => ?_
    have first := layout.slot_inside hp ha
    have second := layout.slot_inside hq hb
    have objects := apart.2.1
    unfold Extent.Apart Grant.extent at objects
    dsimp only at objects
    unfold Grant.extent at first second
    omega

/-- Distinct slots are apart. -/
theorem slots_apart (layout : SlabLayout v) (ha : a ∈ v.slots) (hb : b ∈ v.slots)
    (different : a ≠ b) : a + v.objectSize ≤ b ∨ b + v.objectSize ≤ a := by
  have symmetric : Std.Symm fun a b : Nat => a + v.objectSize ≤ b ∨ b + v.objectSize ≤ a :=
    ⟨fun _ _ => Or.symm⟩
  exact layout.slots_pairwise.forall ha hb different

/-- No slot occurs twice. -/
theorem slots_nodup (layout : SlabLayout v) : v.slots.Nodup := by
  have size := layout.size_ge
  refine layout.slots_pairwise.imp fun {a b} apart same => ?_
  subst same
  omega

theorem nodup (layout : SlabLayout v) : (v.free ++ v.live).Nodup :=
  layout.slots.nodup_iff.mpr layout.slots_nodup

theorem free_mem (layout : SlabLayout v) (member : a ∈ v.free) : a ∈ v.slots :=
  layout.slots.mem_iff.mp (List.mem_append_left _ member)

theorem live_mem (layout : SlabLayout v) (member : a ∈ v.live) : a ∈ v.slots :=
  layout.slots.mem_iff.mp (List.mem_append_right _ member)

/-- A slot has an address. -/
theorem slot_address (layout : SlabLayout v) (member : a ∈ v.slots) : 0 < a ∧ a < 2 ^ 64 := by
  obtain ⟨p, inPages, slot⟩ := mem_slots.mp member
  have inside := layout.slot_inside inPages slot
  have bounds := layout.bounds p.objects (mem_grants_objects inPages)
  have size := layout.size_ge
  omega

/-- A slot is apart from the header and from every page. -/
theorem slot_apart (layout : SlabLayout v) (member : a ∈ v.slots) :
    (a + v.objectSize ≤ v.address ∨ v.address + sizeofSlab ≤ a) ∧
      ∀ q ∈ v.pages, a + v.objectSize ≤ q.page.ptr ∨ q.page.ptr + sizeofSlabPage ≤ a := by
  obtain ⟨p, inPages, slot⟩ := mem_slots.mp member
  have inside := layout.slot_inside inPages slot
  have header := (layout.header_apart inPages).2
  have wide := layout.header
  unfold Extent.Apart at header
  unfold Extent.stop Grant.extent at inside header
  dsimp only at inside header
  unfold SlabView.address
  refine ⟨by omega, fun q inPages' => ?_⟩
  have apart := layout.page_apart_objects inPages' inPages
  have room := layout.page q inPages'
  unfold Extent.Apart Extent.stop Grant.extent at apart
  dsimp only at apart
  omega

/-- A live object and a free slot are apart. -/
theorem live_apart_free (layout : SlabLayout v) (ha : a ∈ v.live) (hb : b ∈ v.free) :
    a + v.objectSize ≤ b ∨ b + v.objectSize ≤ a := by
  refine layout.slots_apart (layout.live_mem ha) (layout.free_mem hb) ?_
  rintro rfl
  exact (List.nodup_append.mp layout.nodup).2.2 a hb a ha rfl

/-- **The slab is not read inside a live object.** -/
theorem live_unread (layout : SlabLayout v) (member : a ∈ v.live) {c : Nat} (lower : a ≤ c)
    (upper : c < a + v.objectSize) : ¬ v.Reads c := by
  obtain ⟨header, pages⟩ := layout.slot_apart (layout.live_mem member)
  have size := layout.size_ge
  rintro (inside | ⟨p, inPages, inside⟩ | ⟨f, inFree, inside⟩)
  · rw [Set.mem_Ico] at inside
    omega
  · have apart := pages p inPages
    rw [Set.mem_Ico] at inside
    omega
  · have apart := layout.live_apart_free member inFree
    rw [Set.mem_Ico] at inside
    omega

/-- The slab is read inside its blocks. -/
theorem reads_inside (layout : SlabLayout v) {c : Nat} (reads : v.Reads c) :
    ∃ g ∈ v.grants, c ∈ g.extent.bytes := by
  have size := layout.size_ge
  rcases reads with inside | ⟨p, inPages, inside⟩ | ⟨f, inFree, inside⟩
  · refine ⟨v.header, List.mem_cons_self, ?_⟩
    have wide := layout.header
    rw [Set.mem_Ico] at inside
    unfold SlabView.address at inside
    rw [Extent.mem_bytes]
    unfold Grant.extent
    dsimp only
    omega
  · refine ⟨p.page, mem_grants_page inPages, ?_⟩
    have wide := layout.page p inPages
    rw [Set.mem_Ico] at inside
    rw [Extent.mem_bytes]
    unfold Grant.extent
    dsimp only
    omega
  · obtain ⟨p, inPages, slot⟩ := mem_slots.mp (layout.free_mem inFree)
    refine ⟨p.objects, mem_grants_objects inPages, ?_⟩
    have within := layout.slot_inside inPages slot
    rw [Set.mem_Ico] at inside
    unfold Extent.stop at within
    rw [Extent.mem_bytes]
    unfold Grant.extent at within ⊢
    dsimp only at within ⊢
    omega

/-! ## Numbers of slots -/

theorem slots_length (v : SlabView) : v.slots.length = v.pages.length * v.objectsPerSlab := by
  unfold SlabView.slots
  rw [List.length_flatMap]
  simp [SlabPage.slots]

/-- **There are fewer slots than words.** -/
theorem slots_length_lt (layout : SlabLayout v) : v.slots.length < 2 ^ 64 := by
  have size := layout.size_ge
  let object : Nat → Extent := fun a => ⟨a, v.objectSize⟩
  have pairwise : (v.slots.map object).Pairwise Extent.Apart :=
    List.pairwise_map.mpr layout.slots_pairwise
  have inside : ∀ e ∈ v.slots.map object, 0 ≤ e.start ∧ e.stop ≤ 2 ^ 64 := by
    intro e member
    obtain ⟨a, inSlots, rfl⟩ := List.mem_map.mp member
    obtain ⟨p, inPages, slot⟩ := mem_slots.mp inSlots
    have within := layout.slot_inside inPages slot
    have bounds := layout.bounds p.objects (mem_grants_objects inPages)
    exact ⟨Nat.zero_le _, by unfold Extent.stop; dsimp only [object]; omega⟩
  have total := Extent.sum_size_le pairwise inside
  rw [List.map_map] at total
  have sum : (v.slots.map (Extent.size ∘ object)).sum = v.slots.length * v.objectSize := by
    rw [show Extent.size ∘ object = fun _ => v.objectSize from rfl, List.map_const',
      List.sum_replicate, smul_eq_mul]
  rw [sum] at total
  have eightfold := Nat.mul_le_mul_left v.slots.length size
  omega

/-- There are as many free slots and live objects as slots. -/
theorem length_add (layout : SlabLayout v) :
    v.free.length + v.live.length = v.pages.length * v.objectsPerSlab := by
  rw [← List.length_append, layout.slots.length_eq, slots_length]

/-- There are fewer pages than words. -/
theorem pages_length_lt (layout : SlabLayout v) : v.pages.length < 2 ^ 64 := by
  have few := layout.slots_length_lt
  rw [slots_length] at few
  exact lt_of_le_of_lt (Nat.le_mul_of_pos_right _ layout.some) few

end SlabLayout

end BcAllocators
