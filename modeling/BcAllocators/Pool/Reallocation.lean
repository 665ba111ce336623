import BcAllocators.Pool.Allocation

/-!
# Release and reallocation

A release puts a held block back on the list of its kind, which the page class
of the pointer names. A reallocation is refused and moves nothing, or grants a
block for the new size in place of the old one: the same block, or a new one
that has received the bytes of the old one.
-/

set_option autoImplicit false

namespace BcAllocators

open Machine

variable {core : BcCore} {platform : Platform} {w w' : World} {spans : List Span}
variable {held free : PoolKind → List Nat} {kind : PoolKind} {block : Nat} {rest : List Nat}

/-! ## The pointer of a block -/

theorem tag_sized {cls : Nat} (valid : cls < numClasses) :
    (PoolKind.sized cls).tag.toNat = cls := by
  have every : ∀ c < 19, (UInt8.ofNat c).toNat = c := by decide
  exact every cls valid

theorem tag_large : ¬ PoolKind.large.tag.toNat < numClasses := by decide

namespace PoolHeap

/-- The pointer that the user of a block has is a pointer into the block. -/
theorem user_inside (heap : PoolHeap platform w spans held free)
    (owned : Owns held free kind block) :
    block + kind.header ∈ (blockExtent w.mem kind block).bytes := by
  rw [Extent.mem_bytes, blockExtent_start]
  have bounds := heap.block_bounds owned
  cases kind with
  | sized cls =>
      rw [PoolKind.header]
      omega
  | large =>
      have room := heap.large_size owned
      change block ≤ block + largeMetaSize ∧
        block + largeMetaSize < block + metaTotalSize w.mem block
      omega

theorem user_class (heap : PoolHeap platform w spans held free)
    (owned : Owns held free kind block) :
    pageClassOf w.ctx (block + kind.header) = kind.tag :=
  heap.pageClassOf_eq owned (heap.user_inside owned)

theorem user_inRegion (heap : PoolHeap platform w spans held free)
    (owned : Owns held free kind block) : ptrInRegion w.ctx (block + kind.header) = true := by
  have inside := heap.user_inside owned
  have bounds := heap.block_bounds owned
  have top := heap.bump_le
  rw [Extent.mem_bytes, blockExtent_start] at inside
  unfold Extent.stop at bounds
  rw [blockExtent_start] at bounds
  unfold ptrInRegion
  rw [decide_eq_true_iff]
  omega

/-- `get_usable_size` gives the class size, or the size in the header. -/
theorem getUsableSize_eq (heap : PoolHeap platform w spans held free)
    (owned : Owns held free kind block) :
    getUsableSize w.ctx w.mem (block + kind.header) =
      (kind.charge (userSize w.mem block), decide (kind = .large)) := by
  unfold getUsableSize
  dsimp only
  rw [heap.user_class owned]
  cases kind with
  | sized cls =>
      have valid := heap.block_kind owned
      rw [tag_sized valid, if_pos valid]
      simp [PoolKind.charge]
  | large =>
      rw [if_neg tag_large]
      simp [PoolKind.charge, PoolKind.header]

/-- A block that is taken out of the held ones is written without harm to the
others. -/
theorem keepsHeld_write {m : Memory} (heap : PoolHeap platform w spans held free)
    (split : (held kind).Perm (block :: rest))
    (changes : ChangesOnly (writable w.mem kind block) w.mem m) :
    KeepsHeld w.mem m (Function.update held kind rest) := by
  have inHeld : block ∈ held kind := split.mem_iff.mpr List.mem_cons_self
  have nodup : (block :: rest).Nodup :=
    split.nodup_iff.mp (List.nodup_append.mp (heap.nodup kind)).1
  intro other a member b inside
  refine changes b fun written => ?_
  have apart : a ∈ held other ∧ (a = block → kind ≠ other) := by
    by_cases same : other = kind
    · subst same
      rw [Function.update_self] at member
      refine ⟨split.mem_iff.mpr (List.mem_cons_of_mem _ member), ?_⟩
      rintro rfl
      exact absurd member (List.nodup_cons.mp nodup).1
    · rw [Function.update_of_ne same] at member
      exact ⟨member, fun _ => Ne.symm same⟩
  rcases heap.block_apart (List.mem_append_left _ inHeld) (List.mem_append_left _ apart.1) with
    ⟨same, sameKind⟩ | separate
  · exact apart.2 same.symm sameKind
  · exact separate.disjoint written.1 inside

end PoolHeap

/-- The recorded size of a block that is kept is kept. -/
theorem KeepsHeld.extent_eq {m m' : Memory} (kept : KeepsHeld m m' held)
    (inHeld : block ∈ held kind) (room : 16 ≤ (blockExtent m kind block).size) :
    blockExtent m' kind block = blockExtent m kind block := by
  cases kind with
  | sized cls => rfl
  | large =>
      have same : metaTotalSize m' block = metaTotalSize m block := by
        refine loadWord_congr fun b lower upper => kept .large block inHeld b ?_
        rw [Extent.mem_bytes, blockExtent_start]
        omega
      rw [blockExtent, blockExtent, same]

theorem KeepsHeld.userSize_eq {m m' : Memory} (kept : KeepsHeld m m' held)
    (inHeld : block ∈ held kind)
    (room : 16 ≤ (blockExtent m kind block).size) :
    userSize m' block = userSize m block := by
  refine loadWord_congr fun b lower upper => kept kind block inHeld b ?_
  rw [Extent.mem_bytes, blockExtent_start]
  omega

theorem KeepsHeld.mono {m m' : Memory} {held' : PoolKind → List Nat} (kept : KeepsHeld m m' held)
    (subset : ∀ kind, ∀ a ∈ held' kind, a ∈ held kind) : KeepsHeld m m' held' :=
  fun kind a member => kept kind a (subset kind a member)

theorem KeepsHeld.trans {m m' m'' : Memory}
    (room : ∀ kind, ∀ a ∈ held kind, 16 ≤ (blockExtent m kind a).size)
    (first : KeepsHeld m m' held) (second : KeepsHeld m' m'' held) : KeepsHeld m m'' held := by
  intro kind a member b inside
  refine (second kind a member b ?_).trans (first kind a member b inside)
  rwa [first.extent_eq member (room kind a member)]

theorem PoolHeap.held_room (heap : PoolHeap platform w spans held free) (kind : PoolKind) :
    ∀ a ∈ held kind, 16 ≤ (blockExtent w.mem kind a).size :=
  fun _ member => (heap.block_bounds (List.mem_append_left _ member)).2.2

/-! ## Release -/

/-- A block was put back: the other blocks are held as before. -/
structure Released (platform : Platform) (w : World) (spans : List Span)
    (held : PoolKind → List Nat) (credit : Nat) (w' : World) : Prop where
  heap : ∃ free, PoolHeap platform w' spans held free
  kept : KeepsHeld w.mem w'.mem held
  region : w'.ctx.region = w.ctx.region
  update : PoolUpdate (Tally.free credit) w w'

@[simp] theorem trackFree_region (ctx : Context) (bytes : Nat) :
    (trackFree ctx bytes).region = ctx.region := by
  unfold trackFree
  split <;> rfl

/-- A pointer outside the region is not freed. -/
theorem poolFree_outside {ptr : Nat} (outside : ptrInRegion w.ctx ptr = false) :
    poolFree w ptr = w :=
  if_pos outside

/-- **A release puts the block back** and credits what its allocation charged. -/
theorem poolFree_released (heap : PoolHeap platform w spans held free)
    (split : (held kind).Perm (block :: rest)) :
    Released platform w spans (Function.update held kind rest)
      (kind.charge (userSize w.mem block)) (poolFree w (block + kind.header)) := by
  have inHeld : block ∈ held kind := split.mem_iff.mpr List.mem_cons_self
  have owned : PoolHeap.Owns held free kind block := List.mem_append_left _ inHeld
  have link := heap.link_writable inHeld
  unfold poolFree
  rw [if_neg (by rw [heap.user_inRegion owned]; simp), heap.user_class owned]
  dsimp only
  cases kind with
  | sized cls =>
      have valid := heap.block_kind owned
      rw [tag_sized valid, if_pos valid]
      dsimp only [PoolKind.header, PoolKind.charge, Nat.add_zero]
      obtain ⟨blocks, _, pushed⟩ := heap.push split
      exact ⟨⟨_, pushed.trackFree _⟩,
        heap.keepsHeld_write split ((FreeList.push_changesOnly _ _ _).mono link),
        (trackFree_region _ _).trans (Context.setFreeList_region _ _ _),
        (PoolUpdate.push w _ _).idThen (.trackFree _ _)⟩
  | large =>
      rw [if_neg tag_large, if_pos (show PoolKind.large.tag = pageClassLarge from rfl)]
      unfold freeLarge
      dsimp only [PoolKind.header, PoolKind.charge]
      rw [Nat.add_sub_cancel]
      have cleared := (changesOnly_storeWord w.mem block 0).mono link
      have emptied := heap.write inHeld cleared
      obtain ⟨blocks, _, pushed⟩ := emptied.push split
      have linked := (FreeList.push_changesOnly w.ctx.largePool
        (storeWord w.mem block 0) block).mono
        link
      exact ⟨⟨_, pushed.trackFree _⟩, heap.keepsHeld_write split (cleared.trans linked),
        (trackFree_region _ _).trans (Context.setFreeList_region _ _ _),
        ((PoolUpdate.memory w _).idThen (PoolUpdate.push _ _ _)).idThen (.trackFree _ _)⟩

/-! ## Reallocation -/

/-- How a successful reallocation changes the tally: the old charge is replaced
by the new one, at once or by an allocation and a release. -/
inductive Recharge (old new : Nat) : (Tally → Tally) → Prop where
  | same : old = new → Recharge old new id
  | resize : Recharge old new (Tally.resize old new)
  | move : Recharge old new (Tally.free old ∘ Tally.alloc new)

/-- A block was granted for the new size in place of the old one, with the bytes
that both sizes have. -/
structure Regranted (core : BcCore) (platform : Platform) (w : World) (spans : List Span)
    (held : PoolKind → List Nat) (kind : PoolKind) (block : Nat) (rest : List Nat)
    (newSize : Nat) (w' : World) (newBlock : Nat) : Prop where
  granted : Granted platform w spans (Function.update held kind rest)
    (requestKind core newSize) newSize w' newBlock
  copied : ∀ i < min (kind.charge (userSize w.mem block)) newSize,
    w'.mem (newBlock + (requestKind core newSize).header + i) =
      w.mem (block + kind.header + i)
  update : ∃ change, PoolUpdate change w w' ∧
    Recharge (kind.charge (userSize w.mem block))
      ((requestKind core newSize).charge newSize) change

/-- The outcomes of a reallocation: a refusal, or a block for the new size. -/
def ReallocateOutcome (core : BcCore) (platform : Platform) (w : World) (spans : List Span)
    (held : PoolKind → List Nat) (kind : PoolKind) (block : Nat) (rest : List Nat)
    (newSize : Nat) (result : World × PtrResult) : Prop :=
  (∃ w', result = (w', .failed) ∧ Refused platform w spans held w') ∨
  (∃ w' newBlock, 0 < newSize ∧
    result = (w', ⟨true, newBlock + (requestKind core newSize).header⟩) ∧
    Regranted core platform w spans held kind block rest newSize w' newBlock)

/-- Take out the old block after the new one has come in. -/
theorem swapHeld (held : PoolKind → List Nat) {kind newKind : PoolKind} {block newBlock : Nat}
    {rest : List Nat} (split : (held kind).Perm (block :: rest)) :
    ∃ rest', (Function.update held newKind (newBlock :: held newKind) kind).Perm
        (block :: rest') ∧
      ∀ other, (Function.update (Function.update held kind rest) newKind
          (newBlock :: Function.update held kind rest newKind) other).Perm
        (Function.update (Function.update held newKind (newBlock :: held newKind)) kind
          rest' other) := by
  by_cases same : newKind = kind
  · subst same
    refine ⟨newBlock :: rest, ?_, fun other => ?_⟩
    · rw [Function.update_self]
      exact (split.cons newBlock).trans (.swap _ _ _)
    · rw [Function.update_idem, Function.update_idem, Function.update_self]
  · refine ⟨rest, ?_, fun other => ?_⟩
    · rwa [Function.update_of_ne (Ne.symm same)]
    · rw [Function.update_of_ne same, Function.update_comm (Ne.symm same)]

theorem mem_of_mem_update (split : (held kind).Perm (block :: rest)) (other : PoolKind) (a : Nat)
    (member : a ∈ Function.update held kind rest other) : a ∈ held other := by
  by_cases same : other = kind
  · subst same
    rw [Function.update_self] at member
    exact split.mem_iff.mpr (List.mem_cons_of_mem _ member)
  · rwa [Function.update_of_ne same] at member

/-- The user of a granted block may fill it. -/
theorem Granted.fill {size : Nat} {m : Memory} (heap : PoolHeap platform w spans held free)
    (granted : Granted platform w spans held kind size w' block)
    (changes : ChangesOnly (Set.Ico (block + kind.header) (block + kind.header + size)) w'.mem m) :
    Granted platform w spans held kind size { w' with mem := m } block := by
  obtain ⟨free', heap'⟩ := granted.heap
  have split : (Function.update held kind (block :: held kind) kind).Perm (block :: held kind) := by
    rw [Function.update_self]
  have inHeld := split.mem_iff.mpr (List.mem_cons_self)
  have fits := granted.fits
  have user : Set.Ico (block + kind.header) (block + kind.header + size) ⊆
      PoolHeap.writable w'.mem kind block := by
    intro b member
    rw [Set.mem_Ico] at member
    refine ⟨Extent.mem_bytes.mpr (by rw [blockExtent_start]; omega), fun large => Or.inr ?_⟩
    rw [large, PoolKind.header] at member
    exact member.1
  have written := changes.mono user
  have kept := heap'.keepsHeld_write split written
  rw [Function.update_idem, Function.update_eq_self] at kept
  have header : kind = .large → ∀ b, block ≤ b → b < block + 16 → m b = w'.mem b := by
    intro large b _ upper
    refine changes b fun member => ?_
    rw [large, Set.mem_Ico, PoolKind.header] at member
    exact absurd member.1 (by unfold largeMetaSize; omega)
  refine ⟨⟨free', heap'.write inHeld written⟩, granted.kept.trans heap.held_room kept, ?_, ?_⟩
  · have extent : blockExtent m kind block = blockExtent w'.mem kind block := by
      cases kind with
      | sized cls => rfl
      | large =>
          have total : metaTotalSize m block = metaTotalSize w'.mem block :=
            loadWord_congr fun b lower upper => header rfl b (by omega) (by omega)
          rw [blockExtent, blockExtent, total]
    rw [extent]
    exact fits
  · intro large
    refine Eq.trans ?_ (granted.recorded large)
    exact loadWord_congr fun b lower upper => header large b lower (by omega)

/-- Release another block once a block is granted. -/
theorem Granted.release {size newBlock : Nat} {newKind : PoolKind}
    (heap : PoolHeap platform w spans held free) (split : (held kind).Perm (block :: rest))
    (granted : Granted platform w spans held newKind size w' newBlock) :
    Granted platform w spans (Function.update held kind rest) newKind size
        (poolFree w' (block + kind.header)) newBlock ∧
      (∀ b ∈ (blockExtent w'.mem newKind newBlock).bytes,
        (poolFree w' (block + kind.header)).mem b = w'.mem b) ∧
      PoolUpdate (Tally.free (kind.charge (userSize w.mem block))) w'
        (poolFree w' (block + kind.header)) := by
  have inHeld : block ∈ held kind := split.mem_iff.mpr List.mem_cons_self
  have room := heap.held_room kind block inHeld
  obtain ⟨free', heap'⟩ := granted.heap
  obtain ⟨rest', split', same⟩ := swapHeld held split
  have released := poolFree_released heap' split'
  rw [granted.kept.userSize_eq inHeld room] at released
  obtain ⟨free'', heap''⟩ := released.heap
  have here : newBlock ∈ Function.update (Function.update held newKind
      (newBlock :: held newKind)) kind rest' newKind := by
    rw [← (same newKind).mem_iff, Function.update_self]
    exact List.mem_cons_self
  have newRoom := heap'.held_room newKind newBlock (by simp)
  refine ⟨⟨⟨free'', ?_⟩, ?_, ?_, fun large => ?_⟩, released.kept newKind newBlock here,
    released.update⟩
  · simpa only [carvedSpan, released.region] using heap''.hold same
  · have fewer := mem_of_mem_update split
    refine (granted.kept.mono fewer).trans (fun other a member =>
      heap.held_room other a (fewer other a member)) ?_
    refine released.kept.mono fun other a member => ?_
    rw [← (same other).mem_iff]
    by_cases new : other = newKind
    · subst new
      rw [Function.update_self]
      exact List.mem_cons_of_mem _ member
    · rwa [Function.update_of_ne new]
  · rw [released.kept.extent_eq here newRoom]
    exact granted.fits
  · rw [released.kept.userSize_eq here newRoom]
    exact granted.recorded large

/-- The bytes of the old block reach the user of the new one. -/
theorem Granted.copied {size newBlock source count : Nat} {newKind : PoolKind}
    (heap : PoolHeap platform w spans held free) (inHeld : block ∈ held kind)
    (granted : Granted platform w spans held newKind size w' newBlock)
    (inside : block ≤ source ∧ source + count ≤ (blockExtent w.mem kind block).stop)
    (short : count ≤ size) {i : Nat} (within : i < count) :
    core.copy w'.mem (newBlock + newKind.header) source count (newBlock + newKind.header + i) =
      w.mem (source + i) := by
  obtain ⟨free', heap'⟩ := granted.heap
  have fits := granted.fits
  have extent := granted.kept.extent_eq inHeld (heap.held_room kind block inHeld)
  have nodup := heap'.nodup newKind
  rw [Function.update_self, List.cons_append, List.nodup_cons] at nodup
  have old : block ∈ Function.update held newKind (newBlock :: held newKind) kind := by
    by_cases same : kind = newKind
    · subst same
      rw [Function.update_self]
      exact List.mem_cons_of_mem _ inHeld
    · rwa [Function.update_of_ne same]
  have new : newBlock ∈ Function.update held newKind (newBlock :: held newKind) newKind := by simp
  have apart : (blockExtent w'.mem kind block).Apart (blockExtent w'.mem newKind newBlock) := by
    rcases heap'.block_apart (List.mem_append_left _ old) (List.mem_append_left _ new) with
      ⟨rfl, rfl⟩ | apart
    · exact absurd (List.mem_append_left _ inHeld) nodup.1
    · exact apart
  rw [extent] at apart
  unfold Extent.Apart Extent.stop at apart
  unfold Extent.stop at inside
  rw [blockExtent_start] at apart inside
  rw [blockExtent_start] at apart
  rw [core.copy_eq (by omega)]
  unfold copyBytes
  rw [if_pos (by omega), Nat.add_sub_cancel_left]
  refine granted.kept kind block inHeld _ (Extent.mem_bytes.mpr ?_)
  rw [blockExtent_start]
  omega

/-- **The last stage of a reallocation** moves the bytes to a block of their own
and releases the old one. -/
theorem reallocateMove_outcome {newSize : Nat} (heap : PoolHeap platform w spans held free)
    (split : (held kind).Perm (block :: rest))
    (bounded : kind.header + kind.charge (userSize w.mem block) ≤
      (blockExtent w.mem kind block).size)
    (word : newSize < 2 ^ 64)
    (noWrap : ∀ total, largeTotal core w.ctx newSize = some total →
      w.ctx.region.bump + total < 2 ^ 64) :
    ReallocateOutcome core platform w spans held kind block rest newSize
      (reallocateMove core w (block + kind.header) (kind.charge (userSize w.mem block))
        newSize) := by
  have inHeld : block ∈ held kind := split.mem_iff.mpr List.mem_cons_self
  unfold reallocateMove
  rcases poolAllocate_outcome core heap word noWrap with
    ⟨w₁, same, refused⟩ | ⟨w₁, newBlock, some, same, granted, allocated⟩
  · rw [same]
    exact Or.inl ⟨w₁, rfl, refused⟩
  rw [same]
  dsimp only
  rw [if_neg (by simp)]
  have copySize : (if kind.charge (userSize w.mem block) < newSize
      then kind.charge (userSize w.mem block) else newSize) =
        min (kind.charge (userSize w.mem block)) newSize := by
    rw [min_def]
    split <;> split <;> omega
  rw [copySize]
  have frame := core.copy_frame w₁.mem (newBlock + (requestKind core newSize).header)
    (block + kind.header) (min (kind.charge (userSize w.mem block)) newSize)
  have filled := granted.fill heap (frame.mono (Set.Ico_subset_Ico_right (by omega)))
  obtain ⟨released, kept, credited⟩ := filled.release heap split
  refine Or.inr ⟨_, newBlock, some, rfl, released, fun i within => ?_, _,
    (allocated.trans (PoolUpdate.memory w₁ _)).trans credited, .move⟩
  have fits := filled.fits
  refine (kept _ (Extent.mem_bytes.mpr ?_)).trans ?_
  · rw [blockExtent_start]
    omega
  · refine granted.copied heap inHeld ?_ (Nat.min_le_right _ _) within
    unfold Extent.stop
    rw [blockExtent_start]
    omega

/-- The held blocks, one of them taken out and put back. -/
theorem PoolHeap.rehold (heap : PoolHeap platform w spans held free)
    (split : (held kind).Perm (block :: rest)) :
    PoolHeap platform w spans (Function.update (Function.update held kind rest) kind
      (block :: Function.update held kind rest kind)) free := by
  rw [Function.update_self, Function.update_idem]
  refine heap.hold fun other => ?_
  by_cases same : other = kind
  · subst same
    rw [Function.update_self]
    exact split.symm
  · rw [Function.update_of_ne same]

/-- A block of a class keeps its place when the new size asks for its class. -/
theorem keepClass_regranted {cls newSize : Nat} (heap : PoolHeap platform w spans held free)
    (split : (held (.sized cls)).Perm (block :: rest)) (enough : newSize ≤ classSize cls)
    (asked : requestKind core newSize = .sized cls) :
    Regranted core platform w spans held (.sized cls) block rest newSize w block := by
  refine ⟨⟨⟨free, ?_⟩, fun _ _ _ _ _ => rfl, ?_, fun large => ?_⟩, fun i _ => ?_, _,
    PoolUpdate.refl w, ?_⟩
  · rw [asked, carvedSpan_same rfl, List.append_nil]
    exact heap.rehold split
  · rw [asked]
    simpa [PoolKind.header, blockExtent] using enough
  · rw [asked] at large
    simp at large
  · rw [asked]
  · rw [asked]
    exact .same rfl

/-- A large block keeps its place when the new total is not larger. -/
theorem resizeLarge_regranted {newSize : Nat} (heap : PoolHeap platform w spans held free)
    (split : (held .large).Perm (block :: rest)) (word : newSize < 2 ^ 64)
    (asked : requestKind core newSize = .large)
    (fits : largeMetaSize + newSize ≤ metaTotalSize w.mem block) :
    Regranted core platform w spans held .large block rest newSize
      { w with ctx := trackResize w.ctx (userSize w.mem block) newSize,
               mem := storeWord w.mem block newSize } block := by
  have inHeld : block ∈ held .large := split.mem_iff.mpr List.mem_cons_self
  have changes := (changesOnly_storeWord w.mem block newSize).mono (heap.link_writable inHeld)
  have total : metaTotalSize (storeWord w.mem block newSize) block = metaTotalSize w.mem block :=
    loadWord_storeWord_of_apart (Or.inl (Nat.le_refl _))
  have region : (trackResize w.ctx (userSize w.mem block) newSize).region = w.ctx.region := by
    unfold trackResize
    split <;> rfl
  refine ⟨⟨⟨free, ?_⟩, ?_, ?_, fun _ => loadWord_storeWord_of_lt word⟩, fun i _ => ?_, _,
    (PoolUpdate.trackResize w _ _).trans (PoolUpdate.memory _ _), ?_⟩
  · rw [asked, carvedSpan_same (by rw [region]), List.append_nil]
    exact ((heap.write inHeld changes).trackResize _ _).rehold split
  · exact heap.keepsHeld_write split changes
  · rw [asked, blockExtent, total]
    exact fits
  · rw [asked]
    refine storeWord_of_not_mem (Or.inr ?_)
    simp only [PoolKind.header, largeMetaSize]
    omega
  · rw [asked]
    exact .resize

/-- **A reallocation of a held block** is refused, or grants a block for the new
size in its place. -/
theorem poolReallocate_outcome (core : BcCore) {newSize : Nat}
    (heap : PoolHeap platform w spans held free)
    (split : (held kind).Perm (block :: rest))
    (bounded : kind.header + kind.charge (userSize w.mem block) ≤
      (blockExtent w.mem kind block).size)
    (word : newSize < 2 ^ 64)
    (noWrap : ∀ total, largeTotal core w.ctx newSize = some total →
      w.ctx.region.bump + total < 2 ^ 64) :
    ReallocateOutcome core platform w spans held kind block rest newSize
      (poolReallocate core w (block + kind.header) newSize) := by
  have inHeld : block ∈ held kind := split.mem_iff.mpr List.mem_cons_self
  have owned : PoolHeap.Owns held free kind block := List.mem_append_left _ inHeld
  have moved := reallocateMove_outcome heap split bounded word noWrap
  unfold poolReallocate
  by_cases zero : newSize = 0
  · rw [if_pos zero]
    exact Or.inl ⟨w, rfl, heap.refused⟩
  have nonnull : block + kind.header ≠ NULL := by
    have := (heap.block_address owned).1
    unfold NULL
    omega
  rw [if_neg zero, if_neg nonnull, heap.getUsableSize_eq owned]
  dsimp only
  cases kind with
  | sized cls =>
      rw [if_pos (by simp)]
      cases classified : sizeClassForSize core newSize with
      | none => exact moved
      | some newCls =>
          dsimp only
          rw [heap.user_class owned]
          split
          · next same =>
              obtain ⟨newValid, enough⟩ := sizeClassForSize_valid classified
              have cls_eq : newCls = cls := by
                rw [← tag_sized newValid, ← tag_sized (heap.block_kind owned)]
                exact congrArg UInt8.toNat same.symm
              subst cls_eq
              have asked := requestKind_eq_sized.mpr classified
              refine Or.inr ⟨w, block, by omega, ?_, keepClass_regranted heap split enough asked⟩
              rw [asked]
          · exact moved
  | large =>
      rw [if_neg (by simp)]
      cases classified : sizeClassForSize core newSize with
      | some newCls => exact moved
      | none =>
          have asked := (requestKind_eq_large core).mpr ((sizeClassForSize_none core).mp classified)
          dsimp only
          cases rounded : largeTotal core w.ctx newSize with
          | none => exact Or.inl ⟨w, rfl, heap.refused⟩
          | some newTotal =>
              dsimp only
              rw [show block + PoolKind.large.header - largeMetaSize = block from
                Nat.add_sub_cancel block largeMetaSize]
              obtain ⟨total, _⟩ := (largeTotal_eq_some heap.geometry word).mp rounded
              have enough : largeMetaSize + newSize ≤ newTotal :=
                total ▸ le_roundUp platform.pageSize_pos
              split
              · next fits =>
                  refine Or.inr ⟨_, block, by omega, ?_,
                    resizeLarge_regranted heap split word asked (enough.trans fits)⟩
                  rw [asked]
              · exact moved

end BcAllocators
