import BcAllocators.Lib.Extents
import BcAllocators.Lib.Transitions
import BcAllocators.Lib.TwoStacks
import BcAllocators.Pool.FreeList

/-!
# A free list is two stacks

A client pushes blocks that are not in the list, pops blocks, and writes memory that
is not in the list. The list then is two stacks, the magazine in front of the
overflow list, and each call does to the stacks what it does to the list
(`magazine_simulates`).

The stacks remember what was in a block when it was pushed. A block in the magazine
still has all of it, and a block in the overflow list all but the first word, which
is its link. So the second word of a large block, its total size, stays as it is
(`magazine_refines_stacks`).
-/

set_option autoImplicit false

namespace BcAllocators

open Machine

/-! ## Two stacks of blocks -/

/-- A block in the list, and what was in it when it was pushed. -/
structure ListEntry where
  block : Extent
  content : List UInt8

def ListEntry.start (e : ListEntry) : Nat := e.block.start

/-- What a client does to a free list. -/
inductive ListCall where
  | push (block : Extent) (content : List UInt8)
  | pop (result : Nat)
  | write

/-- The stacks under these calls. -/
def stackSystem : System (TwoStacks ListEntry) ListCall where
  Start s := s = .empty
  Next s call s' :=
    match call with
    | .push block content => s' = s.push magSize ⟨block, content⟩
    | .pop result => s' = s.pop.1 ∧ result = s.pop.2.elim NULL ListEntry.start
    | .write => s' = s

/-- The call pushes the block at an address. -/
def ListCall.pushes (a : Nat) : ListCall → Bool
  | .push block _ => block.start = a
  | _ => false

/-- The call pops the block at an address. -/
def ListCall.pops (a : Nat) : ListCall → Bool
  | .pop result => result = a
  | _ => false

/-- The pushes of a block are its pops, and one more while it is there. -/
def Balanced (a : Nat) (calls : List ListCall) (s : TwoStacks ListEntry) : Prop :=
  calls.countP (ListCall.pushes a) =
    calls.countP (ListCall.pops a) + (s.entries.map ListEntry.start).count a

/-- Each call keeps the balance. -/
theorem Balanced.step {a : Nat} (nonnull : a ≠ NULL) {before : List ListCall}
    {s s' : TwoStacks ListEntry} {call : ListCall} (balanced : Balanced a before s)
    (step : stackSystem.Next s call s') : Balanced a (before ++ [call]) s' := by
  unfold Balanced at balanced ⊢
  rw [List.countP_append, List.countP_append, List.countP_singleton, List.countP_singleton]
  cases call with
  | push block content =>
      obtain rfl : s' = s.push magSize ⟨block, content⟩ := step
      have more := ((s.push_perm magSize ⟨block, content⟩).map ListEntry.start).count_eq a
      rw [more, List.map_cons, List.count_cons, balanced]
      by_cases same : block.start = a
      · simp [ListCall.pushes, ListCall.pops, ListEntry.start, same, Nat.add_assoc]
      · simp [ListCall.pushes, ListCall.pops, ListEntry.start, same]
  | pop result =>
      obtain ⟨rfl, rfl⟩ := step
      cases popped : s.pop with
      | mk s' top =>
          cases top with
          | none =>
              rw [TwoStacks.pop_of_none popped, balanced]
              simp [ListCall.pushes, ListCall.pops, Ne.symm nonnull]
          | some e =>
              have fewer := ((TwoStacks.pop_perm popped).map ListEntry.start).count_eq a
              rw [List.map_cons, List.count_cons] at fewer
              rw [balanced, fewer]
              by_cases same : e.start = a
              · simp [ListCall.pushes, ListCall.pops, same]
                omega
              · simp [ListCall.pushes, ListCall.pops, same]
  | write =>
      obtain rfl : s' = s := step
      simpa [ListCall.pushes, ListCall.pops] using balanced

/-- **Every block that is pushed is popped once, or is still there.** -/
theorem stackSystem_once {calls : List ListCall} {s : TwoStacks ListEntry}
    (run : stackSystem.Run .empty calls s) {a : Nat} (nonnull : a ≠ NULL) :
    Balanced a calls s :=
  run.traced (Balanced.step nonnull) rfl

/-! ## Runs of a free list -/

variable {m m' : Memory} {fl : FreeList} {s : TwoStacks ListEntry}

/-- A free list and the memory, and the blocks that are in the list. -/
structure ListRun where
  list : FreeList
  mem : Memory
  blocks : List Extent

/-- A block that a client may push: it has room for a link and is apart from those
in the list. -/
structure Pushable (blocks : List Extent) (block : Extent) : Prop where
  size : 8 ≤ block.size
  nonnull : 0 < block.start
  stop : block.stop ≤ 2 ^ 64
  apart : ∀ b ∈ blocks, block.Apart b

/-- Correct clients of a free list that is empty at the start. -/
def freeListSystem : System ListRun ListCall where
  Start t := t.list = FreeList.empty ∧ t.blocks = []
  Next t call t' :=
    match call with
    | .push block content =>
        Pushable t.blocks block ∧ content = loadBytes t.mem block.start block.size ∧
          (t'.list, t'.mem) = freeListPush t.list t.mem block.start ∧ t'.blocks = block :: t.blocks
    | .pop result =>
        (t'.list, result) = freeListPop t.list t.mem ∧ t'.mem = t.mem ∧
          t'.blocks = t.blocks.filter fun b => b.start ≠ result
    | .write =>
        t'.list = t.list ∧ t'.blocks = t.blocks ∧ ∃ address bytes,
          (∀ b ∈ t.blocks, b.Apart ⟨address, bytes.length⟩) ∧
          t'.mem = storeBytes t.mem address bytes

/-- A free list denotes two stacks, whose blocks have kept what was in them, but for
the links of the overflow list. -/
structure FreeList.Denotes (m : Memory) (fl : FreeList) (s : TwoStacks ListEntry) : Prop where
  magazine : fl.magazine = s.front.map ListEntry.start
  chain : Linked (loadWord m) fl.head (s.back.map ListEntry.start)
  front : ∀ e ∈ s.front, loadBytes m e.start e.block.size = e.content
  back : ∀ e ∈ s.back, loadBytes m (e.start + 8) (e.block.size - 8) = e.content.drop 8

/-- Blocks that were pushed one after another. -/
structure ListBlocks (blocks : List Extent) : Prop where
  size : ∀ b ∈ blocks, 8 ≤ b.size
  nonnull : ∀ b ∈ blocks, 0 < b.start
  stop : ∀ b ∈ blocks, b.stop ≤ 2 ^ 64
  apart : blocks.Pairwise Extent.Apart

/-! ## One call -/

namespace FreeList

namespace Denotes

theorem front_length (denotes : Denotes m fl s) : s.front.length = fl.magCount := by
  rw [← fl.magazine_length, denotes.magazine, List.length_map]

/-- What a list denotes depends on the bytes of its blocks. -/
theorem congr (denotes : Denotes m fl s) (size : ∀ e ∈ s.entries, 8 ≤ e.block.size)
    (same : ∀ e ∈ s.entries, ∀ a ∈ e.block.bytes, m' a = m a) : Denotes m' fl s := by
  have inFront : ∀ e ∈ s.front, e ∈ s.entries := fun e => List.mem_append_left s.back
  have inBack : ∀ e ∈ s.back, e ∈ s.entries := fun e => List.mem_append_right s.front
  constructor
  case magazine => exact denotes.magazine
  case chain =>
    apply denotes.chain.congr
    intro a member
    obtain ⟨e, here, rfl⟩ := List.mem_map.mp member
    have room := size e (inBack e here)
    apply loadWord_congr
    intro b lower upper
    exact same e (inBack e here) b ⟨lower, lt_of_lt_of_le upper (Nat.add_le_add_left room _)⟩
  case front =>
    intro e here
    rw [← denotes.front e here]
    apply loadBytes_congr
    intro b lower upper
    exact same e (inFront e here) b ⟨lower, upper⟩
  case back =>
    intro e here
    have room := size e (inBack e here)
    rw [← denotes.back e here]
    apply loadBytes_congr
    intro b lower upper
    refine same e (inBack e here) b ⟨(Nat.le_add_right _ _).trans lower, ?_⟩
    unfold Extent.stop
    unfold ListEntry.start at upper
    omega

/-- **A push on the list is a push on the stacks.** -/
theorem push (denotes : Denotes m fl s) {blocks : List Extent}
    (all : blocks.Perm (s.entries.map ListEntry.block)) (good : ListBlocks blocks)
    {block : Extent} (pushable : Pushable blocks block) :
    Denotes (freeListPush fl m block.start).2 (freeListPush fl m block.start).1
      (s.push magSize ⟨block, loadBytes m block.start block.size⟩) := by
  have inBlocks : ∀ e ∈ s.entries, e.block ∈ blocks :=
    fun e member => all.mem_iff.mpr (List.mem_map_of_mem member)
  by_cases room : fl.magCount < magSize
  · have front : s.front.length < magSize := denotes.front_length.trans_lt room
    unfold freeListPush TwoStacks.push
    rw [dif_pos room, if_pos front]
    constructor
    case magazine => exact (magazine_push room).trans (congrArg _ denotes.magazine)
    case chain => exact denotes.chain
    case front => exact List.forall_mem_cons.mpr ⟨rfl, denotes.front⟩
    case back => exact denotes.back
  · have front : ¬ s.front.length < magSize := denotes.front_length.symm ▸ room
    have link : loadWord (storeWord m block.start fl.head) block.start = fl.head := by
      apply loadWord_storeWord_of_lt
      cases chained : s.back.map ListEntry.start with
      | nil =>
          have chain := denotes.chain
          rw [chained] at chain
          have null : fl.head = 0 := chain
          omega
      | cons a rest =>
          have chain := denotes.chain
          rw [chained] at chain
          obtain ⟨e, here, start⟩ := List.mem_map.mp (chained ▸ List.mem_cons_self)
          have inside := inBlocks e (List.mem_append_right _ here)
          have stop := good.stop _ inside
          have size := good.size _ inside
          unfold Extent.stop at stop
          unfold ListEntry.start at start
          rw [chain.1]
          omega
    -- the blocks in the list are apart from the word that is written
    have kept : Denotes (storeWord m block.start fl.head) fl s := by
      apply denotes.congr fun e member => good.size _ (inBlocks e member)
      intro e member a inside
      apply changesOnly_storeWord
      intro written
      have apart := pushable.apart _ (inBlocks e member)
      exact apart.disjoint ⟨written.1, lt_of_lt_of_le written.2
        (Nat.add_le_add_left pushable.size _)⟩ inside
    unfold freeListPush TwoStacks.push
    rw [dif_neg room, if_neg front]
    constructor
    case magazine => exact kept.magazine
    case chain => exact kept.chain.push (Nat.ne_of_gt pushable.nonnull) link
    case front => exact kept.front
    case back =>
      refine List.forall_mem_cons.mpr ⟨?_, kept.back⟩
      rw [loadBytes_drop _ _ _ _ pushable.size]
      apply loadBytes_congr
      intro b lower upper
      exact storeWord_of_not_mem (Or.inr lower)

/-- **A pop of the list is a pop of the stacks.** -/
theorem pop (denotes : Denotes m fl s) :
    (freeListPop fl m).2 = s.pop.2.elim NULL ListEntry.start ∧
      Denotes m (freeListPop fl m).1 s.pop.1 := by
  have count := denotes.front_length
  obtain ⟨front, back⟩ := s
  unfold freeListPop
  cases front with
  | cons e front =>
      have some : 0 < fl.magCount := by
        rw [← count]
        exact Nat.succ_pos _
      have within : fl.magCount - 1 < magSize := by
        have := fl.magCount_le
        omega
      obtain ⟨entry, remaining⟩ := magazine_pop denotes.magazine within
      rw [dif_pos some]
      refine ⟨entry, remaining, denotes.chain, ?_, denotes.back⟩
      exact fun e member => denotes.front e (List.mem_cons_of_mem _ member)
  | nil =>
      have none : ¬ 0 < fl.magCount := by
        rw [← count]
        exact Nat.lt_irrefl 0
      rw [dif_neg none]
      cases back with
      | cons e back =>
          obtain ⟨here, nonnull, rest⟩ := denotes.chain
          rw [if_pos (by rw [here]; exact nonnull)]
          refine ⟨here, denotes.magazine, here ▸ rest, denotes.front, ?_⟩
          exact fun e member => denotes.back e (List.mem_cons_of_mem _ member)
      | nil =>
          have null : fl.head = 0 := denotes.chain
          rw [if_neg (by simp [null, NULL])]
          exact ⟨null, denotes⟩

end Denotes

end FreeList

/-! ## Runs -/

/-- The list of a run denotes two stacks of the blocks in it. -/
structure ListRun.Shows (t : ListRun) (s : TwoStacks ListEntry) : Prop where
  denotes : t.list.Denotes t.mem s
  blocks : t.blocks.Perm (s.entries.map ListEntry.block)
  good : ListBlocks t.blocks

namespace ListBlocks

variable {blocks : List Extent}

theorem cons (good : ListBlocks blocks) {block : Extent} (pushable : Pushable blocks block) :
    ListBlocks (block :: blocks) where
  size := List.forall_mem_cons.mpr ⟨pushable.size, good.size⟩
  nonnull := List.forall_mem_cons.mpr ⟨pushable.nonnull, good.nonnull⟩
  stop := List.forall_mem_cons.mpr ⟨pushable.stop, good.stop⟩
  apart := List.pairwise_cons.mpr ⟨pushable.apart, good.apart⟩

theorem filter (good : ListBlocks blocks) (keep : Extent → Bool) :
    ListBlocks (blocks.filter keep) where
  size b member := good.size b (List.mem_of_mem_filter member)
  nonnull b member := good.nonnull b (List.mem_of_mem_filter member)
  stop b member := good.stop b (List.mem_of_mem_filter member)
  apart := good.apart.sublist List.filter_sublist

/-- Blocks in the list start at different addresses. -/
theorem starts_nodup (good : ListBlocks blocks) : (blocks.map Extent.start).Nodup := by
  rw [List.Nodup, List.pairwise_map]
  refine good.apart.imp_of_mem ?_
  intro b c inB inC apart same
  have sizeB := good.size b inB
  have sizeC := good.size c inC
  unfold Extent.Apart Extent.stop at apart
  omega

/-- Without the block that was popped the others are left. -/
theorem filter_perm (good : ListBlocks blocks) {block : Extent} {rest : List Extent}
    (all : blocks.Perm (block :: rest)) :
    (blocks.filter fun b => b.start ≠ block.start).Perm rest := by
  have nodup := ((all.map Extent.start).nodup_iff).mp good.starts_nodup
  rw [List.map_cons, List.nodup_cons] at nodup
  have dropped : (block :: rest).filter (fun b => b.start ≠ block.start) = rest := by
    rw [List.filter_cons_of_neg (by simp)]
    apply List.filter_eq_self.mpr
    intro b member
    have different : b.start ≠ block.start := by
      intro same
      exact nodup.1 (same ▸ List.mem_map_of_mem member)
    simpa using different
  exact dropped ▸ all.filter _

end ListBlocks

variable {t t' : ListRun}

theorem ListRun.Shows.start (start : freeListSystem.Start t) : t.Shows .empty := by
  obtain ⟨list, mem, blocks⟩ := t
  obtain ⟨rfl, rfl⟩ : list = FreeList.empty ∧ blocks = [] := start
  refine ⟨⟨?_, rfl, by simp [TwoStacks.empty], by simp [TwoStacks.empty]⟩, .refl _, ?_⟩
  · simp [FreeList.magazine, FreeList.empty, TwoStacks.empty]
  · exact ⟨by simp, by simp, by simp, .nil⟩

/-- **Each call does to the stacks what it does to the list.** -/
theorem ListRun.Shows.step {s : TwoStacks ListEntry} (shows : t.Shows s) {call : ListCall}
    (step : freeListSystem.Next t call t') :
    ∃ s', stackSystem.Next s call s' ∧ t'.Shows s' := by
  obtain ⟨denotes, blocks, good⟩ := shows
  cases call with
  | push block content =>
      obtain ⟨pushable, rfl, pushed, more⟩ := step
      refine ⟨_, rfl, ?_, ?_, more ▸ good.cons pushable⟩
      · have after := denotes.push blocks good pushable
        rwa [← pushed] at after
      · rw [more]
        have added := (s.push_perm magSize
          ⟨block, loadBytes t.mem block.start block.size⟩).map ListEntry.block
        exact (blocks.cons block).trans added.symm
  | pop result =>
      obtain ⟨popped, same, fewer⟩ := step
      obtain ⟨taken, after⟩ := denotes.pop
      rw [← popped] at taken after
      refine ⟨s.pop.1, ⟨rfl, taken⟩, same.symm ▸ after, ?_, fewer ▸ good.filter _⟩
      rw [fewer, show result = s.pop.2.elim NULL ListEntry.start from taken]
      cases top : s.pop with
      | mk s' entry =>
          cases entry with
          | none =>
              rw [TwoStacks.pop_of_none top]
              refine (List.Perm.of_eq (List.filter_eq_self.mpr ?_)).trans blocks
              intro b member
              exact decide_eq_true (Nat.ne_of_gt (good.nonnull b member))
          | some e =>
              have all := blocks.trans ((TwoStacks.pop_perm top).map ListEntry.block)
              exact good.filter_perm all
  | write =>
      obtain ⟨list, same, address, bytes, aside, written⟩ := step
      refine ⟨s, rfl, ?_, same ▸ blocks, same ▸ good⟩
      have inBlocks : ∀ e ∈ s.entries, e.block ∈ t.blocks :=
        fun e member => blocks.mem_iff.mpr (List.mem_map_of_mem member)
      rw [list, written]
      apply denotes.congr fun e member => good.size _ (inBlocks e member)
      intro e member a inside
      exact changesOnly_storeBytes _ _ _ a ((aside _ (inBlocks e member)).disjoint inside)

/-- **The list simulates the stacks.** -/
theorem magazine_simulates {t₀ : ListRun} {calls : List ListCall}
    (start : freeListSystem.Start t₀) (run : freeListSystem.Run t₀ calls t) :
    ∃ s, stackSystem.Run .empty calls s ∧ t.Shows s :=
  run.simulate stackSystem ListRun.Shows (fun shows step => shows.step step)
    (ListRun.Shows.start start)

/-- A free list is two stacks, after some calls: the magazine and the overflow list
have their blocks, each block that was pushed is popped at most once, a push writes
the first word of the block, when the magazine is full, and nothing else is lost of
what is in the blocks. -/
structure ListRun.Refines (t : ListRun) (calls : List ListCall) (s : TwoStacks ListEntry) :
    Prop where
  run : stackSystem.Run .empty calls s
  magazine : t.list.magazine = s.front.map ListEntry.start
  magCount : t.list.magCount = s.front.length
  small : s.front.length ≤ magSize
  chain : Linked (loadWord t.mem) t.list.head (s.back.map ListEntry.start)
  distinct : (s.entries.map ListEntry.start).Nodup
  blocks : t.blocks.Perm (s.entries.map ListEntry.block)
  null : (freeListPop t.list t.mem).2 = NULL ↔ s.front = [] ∧ s.back = []
  once : ∀ a, a ≠ NULL → Balanced a calls s
  writesNothing : ∀ a, s.front.length < magSize → (freeListPush t.list t.mem a).2 = t.mem
  writesLink : ∀ a, ChangesOnly (Set.Ico a (a + 8)) t.mem (freeListPush t.list t.mem a).2
  intact : ∀ e ∈ s.front, loadBytes t.mem e.start e.block.size = e.content
  linked : ∀ e ∈ s.back, loadBytes t.mem (e.start + 8) (e.block.size - 8) = e.content.drop 8
  totalSize : ∀ e ∈ s.entries, 16 ≤ e.block.size →
    loadBytes t.mem (e.start + 8) 8 = (e.content.drop 8).take 8

/-- The second word of a block in the list is what it was when it was pushed. -/
theorem FreeList.Denotes.secondWord {s : TwoStacks ListEntry} (denotes : fl.Denotes m s)
    {e : ListEntry} (member : e ∈ s.entries) (large : 16 ≤ e.block.size) :
    loadBytes m (e.start + 8) 8 = (e.content.drop 8).take 8 := by
  have rest : loadBytes m (e.start + 8) (e.block.size - 8) = e.content.drop 8 := by
    rcases List.mem_append.mp member with inFront | inBack
    · rw [← denotes.front e inFront, loadBytes_drop _ _ _ _ (by omega)]
    · exact denotes.back e inBack
  rw [← rest, loadBytes_take _ _ _ _ (by omega)]

/-- **A free list refines two stacks.** -/
theorem magazine_refines_stacks {t₀ : ListRun} {calls : List ListCall}
    (start : freeListSystem.Start t₀) (run : freeListSystem.Run t₀ calls t) :
    ∃ s, t.Refines calls s := by
  obtain ⟨s, abstractRun, denotes, blocks, good⟩ := magazine_simulates start run
  have count := denotes.front_length
  have distinct : (s.entries.map ListEntry.start).Nodup := by
    have starts := (blocks.map Extent.start).nodup_iff.mp good.starts_nodup
    rwa [List.map_map] at starts
  refine ⟨s, ?_⟩
  constructor
  case run => exact abstractRun
  case magazine => exact denotes.magazine
  case magCount => exact count.symm
  case small => exact count.trans_le t.list.magCount_le
  case chain => exact denotes.chain
  case distinct => exact distinct
  case blocks => exact blocks
  case null =>
    rw [denotes.pop.1, ← TwoStacks.pop_eq_none_iff]
    cases top : s.pop with
    | mk s' entry =>
        cases entry with
        | none => simp
        | some e =>
            have member : e ∈ s.entries :=
              (TwoStacks.pop_perm top).mem_iff.mpr List.mem_cons_self
            have inBlocks := blocks.mem_iff.mpr (List.mem_map_of_mem member)
            have nonnull : e.start ≠ NULL := Nat.ne_of_gt (good.nonnull _ inBlocks)
            simp [nonnull]
  case once => exact fun a nonnull => stackSystem_once abstractRun nonnull
  case writesNothing =>
    intro a room
    unfold freeListPush
    rw [dif_pos (count ▸ room)]
  case writesLink => exact fun a => FreeList.push_changesOnly t.list t.mem a
  case intact => exact denotes.front
  case linked => exact denotes.back
  case totalSize => exact fun e member large => denotes.secondWord member large

/-! ## A run that fills the magazine -/

/-- What a client asks of a free list. -/
inductive ListAction where
  | push (block : Extent)
  | pop
  | write (address : Nat) (bytes : List UInt8)

namespace ListRun

variable (t : ListRun)

/-- What a client may ask. -/
def Permits : ListAction → Prop
  | .push block => Pushable t.blocks block
  | .pop => True
  | .write address bytes => ∀ b ∈ t.blocks, b.Apart ⟨address, bytes.length⟩

instance (blocks : List Extent) (block : Extent) : Decidable (Pushable blocks block) :=
  decidable_of_iff (8 ≤ block.size ∧ 0 < block.start ∧ block.stop ≤ 2 ^ 64 ∧
      ∀ b ∈ blocks, block.Apart b)
    ⟨fun ⟨size, nonnull, stop, apart⟩ => ⟨size, nonnull, stop, apart⟩,
      fun pushable => ⟨pushable.size, pushable.nonnull, pushable.stop, pushable.apart⟩⟩

instance : DecidablePred t.Permits
  | .push block => inferInstanceAs (Decidable (Pushable t.blocks block))
  | .pop => isTrue trivial
  | .write address bytes =>
      inferInstanceAs (Decidable (∀ b ∈ t.blocks, b.Apart ⟨address, bytes.length⟩))

/-- The call that comes of it, and the list and memory that it leads to. -/
def act : ListAction → ListCall × ListRun
  | .push block =>
      let pushed := freeListPush t.list t.mem block.start
      (.push block (loadBytes t.mem block.start block.size),
        ⟨pushed.1, pushed.2, block :: t.blocks⟩)
  | .pop =>
      let popped := freeListPop t.list t.mem
      (.pop popped.2, ⟨popped.1, t.mem, t.blocks.filter fun b => b.start ≠ popped.2⟩)
  | .write address bytes => (.write, { t with mem := storeBytes t.mem address bytes })

variable {t} in
/-- What a client may ask, one after the other, is a run. -/
theorem run_actions {actions : List ListAction} (reachable : freeListSystem.Reachable t)
    (permitted : System.AllowsAll act Permits t actions) :
    freeListSystem.Run t (System.performAll act t actions).1
      (System.performAll act t actions).2 := by
  refine System.Reachable.run_calls ?_ reachable permitted
  intro u action _ permits
  cases action with
  | push block => exact ⟨permits, rfl, rfl, rfl⟩
  | pop => exact ⟨rfl, rfl, rfl⟩
  | write address bytes => exact ⟨rfl, rfl, address, bytes, permits, rfl⟩

/-- An empty list, in a memory of sevens. -/
def sevens : ListRun := ⟨FreeList.empty, fun _ => 7, []⟩

theorem sevens_start : freeListSystem.Start sevens := ⟨rfl, rfl⟩

/-- Two blocks more than the magazine holds. -/
def fillActions : List ListAction :=
  (List.range (magSize + 2)).map fun i => .push ⟨64 + 32 * i, 32⟩

/-- One block is popped and written, and then the list is popped until it is empty. -/
def drainActions : List ListAction :=
  fillActions ++ [.pop, .write 484 [1, 2, 3]] ++ List.replicate (magSize + 2) .pop

end ListRun

/-- The pointers that the pops of a run have given. -/
def poppedStarts (calls : List ListCall) : List Nat :=
  calls.filterMap fun
    | .pop result => some result
    | _ => none

/-- A full magazine over a chain of two blocks, and the same list when it has given its
blocks back: those of the magazine from the last to the first, those of the chain, and
`NULL`. -/
theorem magazine_refines_stacks_drained :
    (∃ s, (System.performAll ListRun.act ListRun.sevens ListRun.fillActions).2.Refines
        (System.performAll ListRun.act ListRun.sevens ListRun.fillActions).1 s) ∧
      (∃ s, (System.performAll ListRun.act ListRun.sevens ListRun.drainActions).2.Refines
        (System.performAll ListRun.act ListRun.sevens ListRun.drainActions).1 s) ∧
      poppedStarts (System.performAll ListRun.act ListRun.sevens ListRun.drainActions).1 =
        (List.range magSize).reverse.map (64 + 32 * ·) ++ [544, 512, NULL] := by
  have filled : System.AllowsAll ListRun.act ListRun.Permits ListRun.sevens
      ListRun.fillActions := by decide +kernel
  have drained : System.AllowsAll ListRun.act ListRun.Permits ListRun.sevens
      ListRun.drainActions := by decide +kernel
  exact ⟨magazine_refines_stacks ListRun.sevens_start
      (ListRun.run_actions (.start ListRun.sevens_start) filled),
    magazine_refines_stacks ListRun.sevens_start
      (ListRun.run_actions (.start ListRun.sevens_start) drained),
    by decide +kernel⟩

end BcAllocators
