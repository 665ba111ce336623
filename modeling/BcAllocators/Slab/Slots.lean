import BcAllocators.Slab.View

/-!
# Slots taken and returned

The three changes that a slab makes to its memory, each as a change of the slab
it represents: a slot is taken from the free list and becomes a live object
(`SlabShape.take`), a live object is put back (`SlabShape.putBack`), and a new
page is linked with all its slots free (`SlabShape.addPage`).
-/

set_option autoImplicit false

namespace BcAllocators

open Machine

variable {m m' : Memory} {v : SlabView} {a : Nat} {rest : List Nat}

/-! ## One slot -/

/-- The slab with other lists of free slots and live objects. -/
def SlabView.move (v : SlabView) (free live : List Nat) : SlabView :=
  { v with free := free, live := live }

/-- A change of the free list and of the number of live objects. -/
theorem SlabShape.move (shape : SlabShape m v) {free live : List Nat}
    (fields : ∀ k ∈ [8, 16, 32, 40], loadWord m' (v.address + k) = loadWord m (v.address + k))
    (pages : ∀ p ∈ v.pages, ∀ k ∈ [0, 8],
      loadWord m' (p.page.ptr + k) = loadWord m (p.page.ptr + k))
    (stack : Stack m' (v.address + 24) free)
    (used : slabUsedObjects m' v.address = live.length) : SlabShape m' (v.move free live) where
  objectSize := (fields 8 (by simp)).trans shape.objectSize
  objectsPerSlab := (fields 16 (by simp)).trans shape.objectsPerSlab
  free := stack
  pages := by
    have start : slabPages m' v.address = slabPages m v.address := fields 32 (by simp)
    change Linked (pageNext m') (slabPages m' v.address) (v.pages.map fun p => p.page.ptr)
    rw [start]
    refine shape.pages.congr fun b member => ?_
    obtain ⟨p, inPages, rfl⟩ := List.mem_map.mp member
    exact pages p inPages 8 (by simp)
  objects p member := (pages p member 0 (by simp)).trans (shape.objects p member)
  slabCount := (fields 40 (by simp)).trans shape.slabCount
  usedObjects := used

/-- The layout does not depend on which slots are free. -/
theorem SlabLayout.move (layout : SlabLayout v) {free live : List Nat}
    (same : (free ++ live).Perm (v.free ++ v.live)) : SlabLayout (v.move free live) :=
  { layout with slots := same.trans layout.slots }

/-- The memory after `bc_allocators_slab_allocate` has taken a slot. -/
def takeSlot (m : Memory) (slab : Nat) : Memory :=
  let popped := (listPop m (slab + 24)).1
  storeWord popped (slab + 48) (wadd (slabUsedObjects popped slab) 1)

/-- The pages are out of the reach of stores to the header. -/
theorem SlabLayout.page_apart_header (layout : SlabLayout v) {p : SlabPage}
    (member : p ∈ v.pages) {j k : Nat} (hj : j + 8 ≤ sizeofSlab) (hk : k + 8 ≤ sizeofSlabPage) :
    v.address + j + 8 ≤ p.page.ptr + k ∨ p.page.ptr + k + 8 ≤ v.address + j := by
  have apart := (layout.header_apart member).1
  have wide := layout.header
  have room := layout.page p member
  unfold Extent.Apart Extent.stop Grant.extent at apart
  dsimp only at apart
  unfold SlabView.address
  omega

/-- A slot is out of the reach of stores to the header. -/
theorem SlabLayout.slot_apart_header (layout : SlabLayout v) (member : a ∈ v.slots) {j : Nat}
    (hj : j + 8 ≤ sizeofSlab) : WordsApart (v.address + j) a := by
  have apart := (layout.slot_apart member).1
  have size := layout.size_ge
  unfold WordsApart
  omega

/-- **The first free slot becomes a live object.** -/
theorem SlabShape.take (shape : SlabShape m v) (layout : SlabLayout v)
    (first : v.free = a :: rest) :
    (listPop m (v.address + 24)).2 = a ∧
      SlabShape (takeSlot m v.address) (v.move rest (a :: v.live)) ∧
      SlabLayout (v.move rest (a :: v.live)) := by
  have stack := shape.free
  rw [first] at stack
  have inFree : ∀ b ∈ a :: rest, b ∈ v.slots := fun b member => layout.free_mem (first ▸ member)
  have top := stack.top_eq
  have nonnull : loadWord m (v.address + 24) ≠ NULL :=
    top ▸ Nat.ne_of_gt (layout.slot_address (inFree a List.mem_cons_self)).1
  have popped : listPop m (v.address + 24) = (storeWord m (v.address + 24) (loadWord m a), a) := by
    unfold listPop
    dsimp only
    rw [if_pos nonnull, top]
  have few : v.live.length + 1 < 2 ^ 64 := by
    have total := layout.length_add
    have short := layout.slots_length_lt
    rw [SlabLayout.slots_length] at short
    rw [first, List.length_cons] at total
    omega
  have perm : (rest ++ a :: v.live).Perm (v.free ++ v.live) := by
    rw [first, List.cons_append]
    exact List.perm_middle
  refine ⟨by rw [popped], ?_, layout.move perm⟩
  have memory : takeSlot m v.address = storeWord (storeWord m (v.address + 24) (loadWord m a))
      (v.address + 48) (v.live.length + 1) := by
    have used : slabUsedObjects (storeWord m (v.address + 24) (loadWord m a)) v.address =
        v.live.length := by
      rw [← shape.usedObjects]
      exact loadWord_storeWord_of_apart (Or.inl (by omega))
    unfold takeSlot
    dsimp only
    rw [popped, used, wadd_of_lt few]
  rw [memory]
  refine shape.move (fun k member => ?_) (fun p member k small => ?_) ?_ ?_
  · fin_cases member <;>
      · rw [loadWord_storeWord_of_apart (by omega), loadWord_storeWord_of_apart (by omega)]
  · have within : k + 8 ≤ sizeofSlabPage := by fin_cases small <;> decide
    rw [loadWord_storeWord_of_apart (layout.page_apart_header member (by decide) within),
      loadWord_storeWord_of_apart (layout.page_apart_header member (by decide) within)]
  · have taken := stack.pop fun b member => layout.slot_apart_header
      (inFree b (List.mem_cons_of_mem a member)) (by decide)
    refine taken.congr fun b member c lower upper => storeWord_of_not_mem ?_
    rcases List.mem_cons.mp member with rfl | inRest
    · omega
    · have apart : WordsApart (v.address + 48) b := layout.slot_apart_header
        (inFree b (List.mem_cons_of_mem a inRest)) (by decide)
      unfold WordsApart at apart
      omega
  · rw [List.length_cons]
    exact loadWord_storeWord_of_lt few

/-- The memory after `bc_allocators_slab_free` has put a slot back. -/
def putBackSlot (m : Memory) (slab ptr : Nat) : Memory :=
  let pushed := listPush m (slab + 24) ptr
  storeWord pushed (slab + 48) (wsub (slabUsedObjects pushed slab) 1)

/-- **A live object becomes the first free slot.** -/
theorem SlabShape.putBack (shape : SlabShape m v) (layout : SlabLayout v)
    (split : v.live.Perm (a :: rest)) :
    SlabShape (putBackSlot m v.address a) (v.move (a :: v.free) rest) ∧
      SlabLayout (v.move (a :: v.free) rest) := by
  have inLive : a ∈ v.live := split.mem_iff.mpr List.mem_cons_self
  have slot := layout.live_mem inLive
  have size := layout.size_ge
  have length := split.length_eq
  rw [List.length_cons] at length
  have aside : ∀ j, j + 8 ≤ sizeofSlab → WordsApart (v.address + j) a :=
    fun j small => layout.slot_apart_header slot small
  have perm : (a :: v.free ++ rest).Perm (v.free ++ v.live) :=
    List.perm_middle.symm.trans (split.symm.append_left v.free)
  refine ⟨?_, layout.move perm⟩
  have few : v.live.length < 2 ^ 64 := by
    have total := layout.length_add
    have short := layout.slots_length_lt
    rw [SlabLayout.slots_length] at short
    omega
  have memory : putBackSlot m v.address a =
      storeWord (stackPush m (v.address + 24) a) (v.address + 48) rest.length := by
    have used : slabUsedObjects (stackPush m (v.address + 24) a) v.address = v.live.length := by
      rw [← shape.usedObjects]
      unfold stackPush
      refine (loadWord_storeWord_of_apart (Or.inl (by omega))).trans ?_
      exact loadWord_storeWord_of_apart (Or.symm (aside 48 (by decide)))
    unfold putBackSlot
    dsimp only
    rw [show listPush m (v.address + 24) a = stackPush m (v.address + 24) a from rfl, used,
      wsub_of_le (by omega) few, length, Nat.add_sub_cancel]
  rw [memory]
  unfold stackPush
  refine shape.move (fun k member => ?_) (fun p member k small => ?_) ?_ ?_
  · have within : k + 8 ≤ sizeofSlab := by fin_cases member <;> decide
    have apart := aside k within
    unfold WordsApart at apart
    rw [loadWord_storeWord_of_apart (by fin_cases member <;> omega),
      loadWord_storeWord_of_apart (by fin_cases member <;> omega),
      loadWord_storeWord_of_apart (Or.symm apart)]
  · have within : k + 8 ≤ sizeofSlabPage := by fin_cases small <;> decide
    have apart := (layout.slot_apart slot).2 p member
    rw [loadWord_storeWord_of_apart (layout.page_apart_header member (by decide) within),
      loadWord_storeWord_of_apart (layout.page_apart_header member (by decide) within),
      loadWord_storeWord_of_apart (by omega)]
  · have pushed := shape.free.push (layout.slot_address slot) (fun b member => ?_)
      fun b member => layout.slot_apart_header (layout.free_mem member) (by decide)
    · refine pushed.congr fun b member c lower upper => storeWord_of_not_mem ?_
      rcases List.mem_cons.mp member with rfl | slots
      · omega
      · have apart : WordsApart (v.address + 48) b := by
          rcases List.mem_cons.mp slots with rfl | inFree
          · exact aside 48 (by decide)
          · exact layout.slot_apart_header (layout.free_mem inFree) (by decide)
        unfold WordsApart at apart
        omega
    · rcases List.mem_cons.mp member with rfl | inFree
      · exact Or.symm (aside 24 (by decide))
      · have apart := layout.live_apart_free inLive inFree
        unfold WordsApart
        omega
  · exact loadWord_storeWord_of_lt (by omega)

/-! ## A page -/

/-- The slab with a page more, all its slots free. -/
def SlabView.withPage (v : SlabView) (p : SlabPage) : SlabView :=
  { v with pages := p :: v.pages
           free := (p.slots v.objectSize v.objectsPerSlab).reverse ++ v.free }

variable {p : SlabPage}

/-- The slots of a page are where the loop puts them. -/
theorem SlabLayout.slotAddress_eq (layout : SlabLayout v) (member : p ∈ v.pages) {i : Nat}
    (small : i < v.objectsPerSlab) :
    slotAddress p.objects.ptr v.objectSize i = p.objects.ptr + i * v.objectSize := by
  have inside := layout.slot_inside member (SlabLayout.mem_pageSlots.mpr ⟨i, small, rfl⟩)
  have bounds := layout.bounds p.objects (SlabLayout.mem_grants_objects member)
  have offset : i * v.objectSize < 2 ^ 64 := by omega
  unfold slotAddress
  rw [wmul_of_lt offset, wadd_of_lt (by omega)]

/-- **The loop pushes the slots of the page**, in order. -/
theorem SlabLayout.fillPage_eq (layout : SlabLayout v) (member : p ∈ v.pages)
    (size : slabObjectSize (stackPush m (v.address + 24) p.objects.ptr) v.address = v.objectSize)
    (count : slabObjectsPerSlab (stackPush m (v.address + 24) p.objects.ptr) v.address =
      v.objectsPerSlab) :
    fillPage m v.address p.objects.ptr =
      (p.slots v.objectSize v.objectsPerSlab).foldl
        (fun m a => stackPush m (v.address + 24) a) m := by
  obtain ⟨more, total⟩ : ∃ more, v.objectsPerSlab = more + 1 :=
    ⟨v.objectsPerSlab - 1, by have := layout.some; omega⟩
  have slots : p.slots v.objectSize v.objectsPerSlab =
      p.objects.ptr :: (List.range' 1 more).map fun i => p.objects.ptr + i * v.objectSize := by
    unfold SlabPage.slots
    rw [total, List.range_eq_range', List.range'_succ, List.map_cons, Nat.zero_mul, Nat.add_zero]
  unfold fillPage pushSlots
  dsimp only
  rw [show listPush m (v.address + 24) p.objects.ptr = stackPush m (v.address + 24) p.objects.ptr
    from rfl, size, count, slots, List.foldl_cons, List.foldl_map, total, Nat.add_sub_cancel]
  refine List.foldl_ext _ _ _ fun m' i inRange => ?_
  rw [List.mem_range'_1] at inRange
  rw [layout.slotAddress_eq member (by omega)]
  rfl

/-- Linking a page writes the page and two fields of the header. -/
theorem linkPage_changesOnly (m : Memory) (slab page objects : Nat) :
    ChangesOnly (Set.Ico page (page + sizeofSlabPage) ∪ Set.Ico (slab + 32) (slab + 48)) m
      (linkPage m slab page objects) := by
  have stores : ∀ (n : Memory) (a x : Nat), Set.Ico a (a + 8) ⊆
      Set.Ico page (page + sizeofSlabPage) ∪ Set.Ico (slab + 32) (slab + 48) →
      ChangesOnly (Set.Ico page (page + sizeofSlabPage) ∪ Set.Ico (slab + 32) (slab + 48)) n
        (storeWord n a x) := fun n a x within => (changesOnly_storeWord n a x).mono within
  unfold linkPage sizeofSlabPage at *
  refine (((stores m page objects ?_).trans (stores _ (page + 8) _ ?_)).trans
    (stores _ (slab + 32) _ ?_)).trans (stores _ (slab + 40) _ ?_) <;>
    · intro b inside
      rw [Set.mem_Ico] at inside
      rw [Set.mem_union, Set.mem_Ico, Set.mem_Ico]
      omega

/-- A word out of the reach of the stack is kept by the pushes. -/
theorem loadWord_pushAll {top : Nat} {nodes : List Nat} {b : Nat}
    (apart : ∀ a ∈ top :: nodes, WordsApart b a) (m : Memory) :
    loadWord (nodes.foldl (fun m a => stackPush m top a) m) b = loadWord m b := by
  have changes := @changesOnly_pushAll top nodes {c | ∃ a ∈ top :: nodes, c ∈ Set.Ico a (a + 8)}
    (fun a member c inside => ⟨a, member, inside⟩) m
  refine changes.loadWord fun c lower upper => ?_
  rintro ⟨a, member, inside⟩
  have words := apart a member
  unfold WordsApart at words
  rw [Set.mem_Ico] at inside
  omega

section AddPage

variable (layout : SlabLayout (v.withPage p))

include layout

/-- The new page is apart from the header. -/
theorem SlabLayout.newPage_apart {j k : Nat} (hj : j + 8 ≤ sizeofSlab)
    (hk : k + 8 ≤ sizeofSlabPage) : WordsApart (v.address + j) (p.page.ptr + k) :=
  layout.page_apart_header List.mem_cons_self hj hk

/-- Linking a page keeps the words of the header but two. -/
theorem linkPage_field {k : Nat} (within : k + 8 ≤ sizeofSlab) (other : k + 8 ≤ 32 ∨ 48 ≤ k) :
    loadWord (linkPage m v.address p.page.ptr p.objects.ptr) (v.address + k) =
      loadWord m (v.address + k) := by
  refine (linkPage_changesOnly m _ _ _).loadWord fun b lower upper inside => ?_
  have first := layout.newPage_apart within (show 0 + 8 ≤ sizeofSlabPage by decide)
  have second := layout.newPage_apart within (show 8 + 8 ≤ sizeofSlabPage by decide)
  unfold WordsApart at first second
  unfold sizeofSlabPage at inside
  rw [Set.mem_union, Set.mem_Ico, Set.mem_Ico] at inside
  omega

/-- Linking a page keeps the other pages. -/
theorem linkPage_others {q : SlabPage} (member : q ∈ v.pages) {k : Nat}
    (within : k + 8 ≤ sizeofSlabPage) :
    loadWord (linkPage m v.address p.page.ptr p.objects.ptr) (q.page.ptr + k) =
      loadWord m (q.page.ptr + k) := by
  refine (linkPage_changesOnly m _ _ _).loadWord fun b lower upper inside => ?_
  have header := layout.page_apart_header (List.mem_cons_of_mem p member)
    (show 32 + 8 ≤ sizeofSlab by decide) within
  have header' := layout.page_apart_header (List.mem_cons_of_mem p member)
    (show 40 + 8 ≤ sizeofSlab by decide) within
  have pages := ((List.pairwise_cons.mp layout.pages_pairwise).1 q member).1
  have room := layout.page p List.mem_cons_self
  have room' := layout.page q (List.mem_cons_of_mem p member)
  unfold Extent.Apart Extent.stop Grant.extent at pages
  dsimp only at pages
  rw [Set.mem_union, Set.mem_Ico, Set.mem_Ico] at inside
  change v.address + 32 + 8 ≤ q.page.ptr + k ∨ q.page.ptr + k + 8 ≤ v.address + 32 at header
  change v.address + 40 + 8 ≤ q.page.ptr + k ∨ q.page.ptr + k + 8 ≤ v.address + 40 at header'
  omega

/-- The fields that linking a page sets. -/
theorem linkPage_sets :
    pageObjects (linkPage m v.address p.page.ptr p.objects.ptr) p.page.ptr = p.objects.ptr ∧
    pageNext (linkPage m v.address p.page.ptr p.objects.ptr) p.page.ptr =
      slabPages m v.address ∧
    slabPages (linkPage m v.address p.page.ptr p.objects.ptr) v.address = p.page.ptr ∧
    slabCount (linkPage m v.address p.page.ptr p.objects.ptr) v.address =
      wadd (slabCount m v.address) 1 := by
  have aside : ∀ j ∈ [32, 40], ∀ k ∈ [0, 8], WordsApart (v.address + j) (p.page.ptr + k) := by
    intro j hj k hk
    refine layout.newPage_apart ?_ ?_
    · fin_cases hj <;> decide
    · fin_cases hk <;> decide
  have objects := layout.bounds p.objects (SlabLayout.mem_grants_objects List.mem_cons_self)
  have page := layout.bounds p.page (SlabLayout.mem_grants_page List.mem_cons_self)
  unfold Extent.stop Grant.extent at objects page
  dsimp only at objects page
  have a32 := aside 32 (by simp) 0 (by simp)
  have a40 := aside 40 (by simp) 0 (by simp)
  have b32 := aside 32 (by simp) 8 (by simp)
  have b40 := aside 40 (by simp) 8 (by simp)
  unfold WordsApart at a32 a40 b32 b40
  unfold linkPage pageObjects pageNext slabPages slabCount
  dsimp only
  refine ⟨?_, ?_, ?_, ?_⟩
  · rw [loadWord_storeWord_of_apart (by omega), loadWord_storeWord_of_apart (by omega),
      loadWord_storeWord_of_apart (by omega), loadWord_storeWord_of_lt (by omega)]
  · rw [loadWord_storeWord_of_apart (by omega), loadWord_storeWord_of_apart (by omega),
      loadWord_storeWord, Nat.mod_eq_of_lt (loadWord_lt _ _)]
    exact loadWord_storeWord_of_apart (by omega)
  · rw [loadWord_storeWord_of_apart (by omega), loadWord_storeWord_of_lt (by omega)]
  · rw [loadWord_storeWord_of_lt (wadd_lt _ _), loadWord_storeWord_of_apart (by omega),
      loadWord_storeWord_of_apart (by omega), loadWord_storeWord_of_apart (by omega)]

/-- The free list is out of the reach of the stores that link a page. -/
theorem linkPage_stack (shape : SlabShape m v) :
    Stack (linkPage m v.address p.page.ptr p.objects.ptr) (v.address + 24) v.free := by
  refine shape.free.congr fun a member b lower upper =>
    linkPage_changesOnly m _ _ _ b fun inside => ?_
  rw [Set.mem_union, Set.mem_Ico, Set.mem_Ico] at inside
  rcases List.mem_cons.mp member with rfl | inFree
  · have first := layout.newPage_apart (show 24 + 8 ≤ sizeofSlab by decide)
      (show 0 + 8 ≤ sizeofSlabPage by decide)
    have second := layout.newPage_apart (show 24 + 8 ≤ sizeofSlab by decide)
      (show 8 + 8 ≤ sizeofSlabPage by decide)
    unfold WordsApart at first second
    unfold sizeofSlabPage at inside
    omega
  · have slot : a ∈ (v.withPage p).slots :=
      layout.free_mem (List.mem_append_right _ inFree)
    obtain ⟨header, pages⟩ := layout.slot_apart slot
    have page := pages p List.mem_cons_self
    have size := layout.size_ge
    change a + v.objectSize ≤ v.address ∨ v.address + sizeofSlab ≤ a at header
    change a + v.objectSize ≤ p.page.ptr ∨ _ at page
    change 8 ≤ v.objectSize at size
    unfold sizeofSlab at header
    omega

/-- The top of the free list and the slots are apart. -/
theorem SlabLayout.slots_stack :
    ((v.address + 24) :: (p.slots v.objectSize v.objectsPerSlab ++ v.free)).Pairwise
      WordsApart := by
  have size : 8 ≤ v.objectSize := layout.size_ge
  have perm : (p.slots v.objectSize v.objectsPerSlab ++ v.free).Perm (v.withPage p).free :=
    (List.reverse_perm _).symm.append_right v.free
  refine List.pairwise_cons.mpr ⟨fun a member => ?_, ?_⟩
  · have inFree : a ∈ (v.withPage p).free := perm.mem_iff.mp member
    exact layout.slot_apart_header (layout.free_mem inFree) (by decide)
  · have symmetric : ∀ {a b : Nat}, WordsApart a b → WordsApart b a := Or.symm
    have all : (v.withPage p).slots.Pairwise WordsApart :=
      layout.slots_pairwise.imp fun {a b} apart => by
        change a + v.objectSize ≤ b ∨ b + v.objectSize ≤ a at apart
        unfold WordsApart
        omega
    have both := (layout.slots.symm.pairwise_iff symmetric).mp all
    exact (perm.pairwise_iff symmetric).mpr (List.pairwise_append.mp both).1

/-- The new slots are apart from the header. -/
theorem SlabLayout.newSlot_apart_header {k : Nat} (within : k + 8 ≤ sizeofSlab)
    (member : a ∈ p.slots v.objectSize v.objectsPerSlab) : WordsApart (v.address + k) a :=
  layout.slot_apart_header (SlabLayout.mem_slots.mpr ⟨p, List.mem_cons_self, member⟩) within

/-- The pages are apart from the top of the free list and from the new slots. -/
theorem SlabLayout.page_apart_newSlot {q : SlabPage} (member : q ∈ p :: v.pages) {k : Nat}
    (within : k + 8 ≤ sizeofSlabPage)
    (inTop : a ∈ (v.address + 24) :: p.slots v.objectSize v.objectsPerSlab) :
    WordsApart (q.page.ptr + k) a := by
  rcases List.mem_cons.mp inTop with rfl | inSlots
  · exact Or.symm (layout.page_apart_header member (show 24 + 8 ≤ sizeofSlab by decide) within)
  · have slot : a ∈ (v.withPage p).slots :=
      SlabLayout.mem_slots.mpr ⟨p, List.mem_cons_self, inSlots⟩
    have apart := (layout.slot_apart slot).2 q member
    have size : 8 ≤ v.objectSize := layout.size_ge
    change a + v.objectSize ≤ q.page.ptr ∨ _ at apart
    unfold WordsApart
    omega

/-- The pushes keep the words of the header but the top of the free list. -/
theorem pushSlots_field {k : Nat} (within : k + 8 ≤ sizeofSlab) (other : k + 8 ≤ 24 ∨ 32 ≤ k)
    (nodes : List Nat) (slots : ∀ a ∈ nodes, a ∈ p.slots v.objectSize v.objectsPerSlab)
    (n : Memory) :
    loadWord (nodes.foldl (fun m a => stackPush m (v.address + 24) a) n) (v.address + k) =
      loadWord n (v.address + k) := by
  refine loadWord_pushAll (fun a member => ?_) n
  rcases List.mem_cons.mp member with rfl | inNodes
  · unfold WordsApart
    omega
  · exact layout.newSlot_apart_header within (slots a inNodes)

/-- A new page is filled by pushing its slots. -/
theorem fillPage_linked (shape : SlabShape m v) :
    fillPage (linkPage m v.address p.page.ptr p.objects.ptr) v.address p.objects.ptr =
      (p.slots v.objectSize v.objectsPerSlab).foldl
        (fun m a => stackPush m (v.address + 24) a)
        (linkPage m v.address p.page.ptr p.objects.ptr) := by
  have first : ∀ a ∈ [p.objects.ptr], a ∈ p.slots v.objectSize v.objectsPerSlab := by
    intro a member
    rw [List.mem_singleton.mp member]
    exact SlabLayout.mem_pageSlots.mpr ⟨0, layout.some, by simp⟩
  have field : ∀ k, k + 8 ≤ sizeofSlab → k + 8 ≤ 24 →
      loadWord (stackPush (linkPage m v.address p.page.ptr p.objects.ptr) (v.address + 24)
        p.objects.ptr) (v.address + k) = loadWord m (v.address + k) := fun k within low =>
    (pushSlots_field layout within (Or.inl low) [p.objects.ptr] first _).trans
      (linkPage_field layout within (Or.inl (by omega)))
  exact layout.fillPage_eq List.mem_cons_self
    ((field 8 (by decide) (by decide)).trans shape.objectSize)
    ((field 16 (by decide) (by decide)).trans shape.objectsPerSlab)

/-- **A new page joins the slab** with all its slots free. -/
theorem SlabShape.addPage (shape : SlabShape m v) :
    SlabShape (fillPage (linkPage m v.address p.page.ptr p.objects.ptr) v.address p.objects.ptr)
      (v.withPage p) := by
  have here : p ∈ (v.withPage p).pages := List.mem_cons_self
  obtain ⟨objects, next, first, count⟩ := linkPage_sets (m := m) layout
  rw [fillPage_linked layout shape]
  have field : ∀ k, k + 8 ≤ sizeofSlab → (k + 8 ≤ 24 ∨ 32 ≤ k) → ∀ n : Memory,
      loadWord ((p.slots v.objectSize v.objectsPerSlab).foldl
        (fun m a => stackPush m (v.address + 24) a) n) (v.address + k) =
          loadWord n (v.address + k) :=
    fun k within other n => pushSlots_field layout within other _ (fun _ => id) n
  have page : ∀ q ∈ p :: v.pages, ∀ k, k + 8 ≤ sizeofSlabPage → ∀ n : Memory,
      loadWord ((p.slots v.objectSize v.objectsPerSlab).foldl
        (fun m a => stackPush m (v.address + 24) a) n) (q.page.ptr + k) =
          loadWord n (q.page.ptr + k) :=
    fun q member k within n =>
      loadWord_pushAll (fun a => layout.page_apart_newSlot member within) n
  -- the words of the header: kept by the pushes, and by the link but for two
  have kept : ∀ k, k + 8 ≤ sizeofSlab → (k + 8 ≤ 24 ∨ 48 ≤ k) →
      loadWord ((p.slots v.objectSize v.objectsPerSlab).foldl
        (fun m a => stackPush m (v.address + 24) a)
        (linkPage m v.address p.page.ptr p.objects.ptr)) (v.address + k) =
          loadWord m (v.address + k) := fun k within other =>
    (field k within (by omega) _).trans (linkPage_field layout within (by omega))
  constructor
  case objectSize => exact (kept 8 (by decide) (by decide)).trans shape.objectSize
  case objectsPerSlab => exact (kept 16 (by decide) (by decide)).trans shape.objectsPerSlab
  case free =>
    refine (linkPage_stack layout shape).pushAll (fun a member => ?_) layout.slots_stack
    exact layout.slot_address (SlabLayout.mem_slots.mpr ⟨p, here, member⟩)
  case pages =>
    have start := (field 32 (by decide) (by decide)
      (linkPage m v.address p.page.ptr p.objects.ptr)).trans first
    have link := (page p List.mem_cons_self 8 (by decide)
      (linkPage m v.address p.page.ptr p.objects.ptr)).trans next
    have address := layout.bounds p.page (SlabLayout.mem_grants_page here)
    refine ⟨start, Nat.ne_of_gt address.1, Linked.start (shape.pages.congr ?_) link⟩
    intro a member
    obtain ⟨q, inPages, rfl⟩ := List.mem_map.mp member
    exact (page q (List.mem_cons_of_mem p inPages) 8 (by decide) _).trans
      (linkPage_others layout inPages (by decide))
  case objects =>
    intro q member
    refine (page q member 0 (by decide) _).trans ?_
    rcases List.mem_cons.mp member with rfl | inPages
    · exact objects
    · exact (linkPage_others (k := 0) layout inPages (by decide)).trans (shape.objects q inPages)
  case slabCount =>
    have more := layout.pages_length_lt
    change v.pages.length + 1 < 2 ^ 64 at more
    refine (field 40 (by decide) (by decide) _).trans (count.trans ?_)
    rw [shape.slabCount, wadd_of_lt more]
    rfl
  case usedObjects => exact (kept 48 (by decide) (by decide)).trans shape.usedObjects

/-- **The stores of a new page lie in the blocks of the slab.** -/
theorem SlabLayout.addPage_changesOnly (shape : SlabShape m v) :
    ChangesOnly {b | ∃ g ∈ (v.withPage p).grants, b ∈ g.extent.bytes} m
      (fillPage (linkPage m v.address p.page.ptr p.objects.ptr) v.address p.objects.ptr) := by
  have here : p ∈ (v.withPage p).pages := List.mem_cons_self
  have room : sizeofSlabPage ≤ p.page.usable := layout.page p here
  have wide : sizeofSlab ≤ v.header.usable := layout.header
  have header : ∀ b, v.address ≤ b → b < v.address + sizeofSlab →
      ∃ g ∈ (v.withPage p).grants, b ∈ g.extent.bytes := by
    intro b lower upper
    refine ⟨v.header, List.mem_cons_self, lower, ?_⟩
    unfold Extent.stop Grant.extent
    unfold SlabView.address at upper
    dsimp only
    omega
  rw [fillPage_linked layout shape]
  refine ChangesOnly.trans ((linkPage_changesOnly m _ _ _).mono ?_) (changesOnly_pushAll ?_ _)
  · rintro b (inside | inside)
    · refine ⟨p.page, SlabLayout.mem_grants_page here, inside.1, ?_⟩
      have upper := inside.2
      unfold Extent.stop Grant.extent
      dsimp only
      omega
    · rw [Set.mem_Ico] at inside
      unfold sizeofSlab at header
      exact header b (by omega) (by omega)
  · intro a member b inside
    rw [Set.mem_Ico] at inside
    rcases List.mem_cons.mp member with rfl | slot
    · unfold sizeofSlab at header
      exact header b (by omega) (by omega)
    · have within := layout.slot_inside here slot
      have size : 8 ≤ v.objectSize := layout.size_ge
      change p.objects.ptr ≤ a ∧ a + v.objectSize ≤ _ at within
      exact ⟨p.objects, SlabLayout.mem_grants_objects here,
        by unfold Grant.extent; dsimp only; omega, by omega⟩

end AddPage

end BcAllocators
