import BcAllocators.Lib.ByteHeap
import BcAllocators.Pool.Client

/-!
# The pool refines a heap of byte blocks

Seen by a client that writes only to the bytes it has asked for, the pool is a
heap that maps each live pointer to its bytes. `heapSystem` is that heap, with
the same calls and results; it knows nothing of free lists, headers or size
classes. Every run of the pool is a run of the heap
(`pool_refines_heap`): a call touches no block but its own, and a reallocation
keeps the bytes that both sizes have, whichever of its paths it takes.
-/

set_option autoImplicit false

namespace BcAllocators

open Machine

variable {core : BcCore} {platform : Platform} {s s' : PoolState}

/-! ## The abstract heap -/

/-- What a call does to the heap of the client's blocks. -/
def heapNext (h : ByteHeap) (event : PoolEvent) (h' : ByteHeap) : Prop :=
  match event.call with
  | .allocate size =>
      event.result.ok = true ∧ event.result.out ≠ NULL ∧ h.Allocates size event.result.out h' ∨
        event.result = .failed ∧ h' = h
  | .reallocate ptr newSize =>
      event.result.ok = true ∧ event.result.out ≠ NULL ∧
          (if ptr = NULL then h.Allocates newSize event.result.out h'
            else h.Reallocates ptr newSize event.result.out h') ∨
        event.result = .failed ∧ h' = h
  | .free ptr => h.Frees ptr h'
  | .write address bytes => h.Writes address bytes h'

/-- The heap of byte blocks, with the calls of the pool. -/
def heapSystem : System ByteHeap PoolEvent where
  Start h := h = ByteHeap.empty
  Next := heapNext

/-- The bytes that the client has asked for, by pointer. -/
def PoolState.bytes (s : PoolState) : ByteHeap :=
  ByteHeap.contents s.world.mem (s.live.map LiveBlock.request)

/-- Clients that write only to the bytes they have asked for. -/
def carefulSystem (core : BcCore) (platform : Platform) : System PoolState PoolEvent where
  Start := (poolSystem core platform).Start
  Next s event s' := (poolSystem core platform).Next s event s' ∧
    ∀ address bytes, event.call = .write address bytes →
      ∃ b ∈ s.live, b.ptr ≤ address ∧ address + bytes.length ≤ b.request.stop

/-! ## Requested bytes -/

/-- The request of a live block lies in its block. -/
theorem LiveBlock.Placed.request_inside {m : Memory} {b : LiveBlock} (placed : b.Placed core m)
    {a : Nat} (inside : a ∈ b.request.bytes) :
    a ∈ (blockExtent m (b.kind core) (b.block core)).bytes := by
  have pointer := placed.pointer
  have fits := placed.fits
  rw [Extent.mem_bytes] at *
  rw [blockExtent_start]
  unfold LiveBlock.request at inside
  dsimp only at inside
  omega

/-- The requests of live blocks are apart. -/
theorem PoolInv.requests_apart (inv : PoolInv core platform s) :
    (s.live.map LiveBlock.request).Pairwise Extent.Apart := by
  refine List.pairwise_map.mpr (inv.live_apart.imp_of_mem fun {b c} inLive inLive' apart => ?_)
  have placed := inv.placed b inLive
  have placed' := inv.placed c inLive'
  have pointer := placed.pointer
  have pointer' := placed'.pointer
  have fits := placed.fits
  have fits' := placed'.fits
  refine apart.mono ?_ ?_ <;>
    · unfold LiveBlock.request Extent.stop
      rw [blockExtent_start]
      dsimp only
      omega

/-- The requests have different pointers. -/
theorem PoolInv.requests_nodup (inv : PoolInv core platform s) :
    ((s.live.map LiveBlock.request).map Extent.start).Nodup := by
  rw [List.map_map]
  exact inv.nodup

/-- A step that keeps the blocks of some live pointers keeps their bytes. -/
theorem contents_kept {m m' : Memory} {held : PoolKind → List Nat} {live : List LiveBlock}
    (placed : ∀ b ∈ live, b.Placed core m)
    (inHeld : ∀ b ∈ live, b.block core ∈ held (b.kind core)) (kept : KeepsHeld m m' held) :
    ByteHeap.contents m' (live.map LiveBlock.request) =
      ByteHeap.contents m (live.map LiveBlock.request) := by
  refine ByteHeap.contents_congr fun e member a inside => ?_
  obtain ⟨b, inLive, rfl⟩ := List.mem_map.mp member
  exact kept _ _ (inHeld b inLive) a ((placed b inLive).request_inside inside)

theorem contents_dropLive (m : Memory) (live : List LiveBlock) (ptr : Nat) :
    ByteHeap.contents m ((dropLive live ptr).map LiveBlock.request) =
      Function.update (ByteHeap.contents m (live.map LiveBlock.request)) ptr none := by
  rw [← ByteHeap.contents_filter, List.filter_map]
  rfl

/-! ## One call -/

/-- The requests of a client, a new block in front of others that are kept. -/
theorem bytes_grant {w' : World} {others : List LiveBlock} {held : PoolKind → List Nat}
    (ptr size : Nat) (spans : List Span) (placed : ∀ b ∈ others, b.Placed core s.world.mem)
    (inHeld : ∀ b ∈ others, b.block core ∈ held (b.kind core))
    (kept : KeepsHeld s.world.mem w'.mem held) :
    PoolState.bytes ⟨w', ⟨ptr, size⟩ :: others, spans⟩ =
      Function.update (ByteHeap.contents s.world.mem (others.map LiveBlock.request)) ptr
        (some (loadBytes w'.mem ptr size)) := by
  rw [← contents_kept placed inHeld kept]
  exact ByteHeap.contents_cons w'.mem ⟨ptr, size⟩ (others.map LiveBlock.request)

theorem bytes_allocate (inv : PoolInv core platform s) {size : Nat}
    (allowed : size ≤ s.world.ctx.region.totalSize) :
    heapNext s.bytes ⟨.allocate size, (s.perform core (.allocate size)).2⟩
      (s.perform core (.allocate size)).1.bytes := by
  have after := inv.allocate allowed
  unfold PoolState.perform
  dsimp only
  unfold PoolState.answered at after ⊢
  rcases inv.allocate_outcome allowed with
    ⟨w', same, refused⟩ | ⟨w', block, some, same, granted, _⟩
  · rw [same]
    refine Or.inr ⟨rfl, ?_⟩
    unfold PoolState.bytes
    rw [show w'.mem = s.world.mem from refused.mem]
    rfl
  · rw [same] at after ⊢
    have fresh := after.nodup
    rw [show (if (true : Bool) = true then (⟨block + (requestKind core size).header, size⟩ ::
      s.live : List LiveBlock) else s.live) = _ from if_pos rfl, List.map_cons,
      List.nodup_cons] at fresh
    refine Or.inl ⟨rfl, granted.ne_null _, ?_, _, loadBytes_length _ _ _,
      bytes_grant _ _ _ inv.placed (fun b member => heldBlocks_of_mem core member) granted.kept⟩
    refine ByteHeap.contents_of_not_mem fun e member same => fresh.1 ?_
    obtain ⟨b, inLive, rfl⟩ := List.mem_map.mp member
    exact List.mem_map.mpr ⟨b, inLive, same⟩

/-- The pointer of a new block is not in use among the others. -/
theorem contents_fresh {m : Memory} {b : LiveBlock} {others : List LiveBlock}
    (nodup : ((b :: others).map LiveBlock.ptr).Nodup) :
    ByteHeap.contents m (others.map LiveBlock.request) b.ptr = none := by
  rw [List.map_cons, List.nodup_cons] at nodup
  refine ByteHeap.contents_of_not_mem fun e member same => nodup.1 ?_
  obtain ⟨c, inOthers, rfl⟩ := List.mem_map.mp member
  exact List.mem_map.mpr ⟨c, inOthers, same⟩

/-- The bytes of a new block begin with those of the old one. -/
theorem Regranted.prefix_kept {w' : World} {spans : List Span} {held : PoolKind → List Nat}
    {rest : List Nat} {newSize newBlock : Nat} {b : LiveBlock}
    (placed : b.Placed core s.world.mem)
    (regranted : Regranted core platform s.world spans held (b.kind core) (b.block core) rest
      newSize w' newBlock) :
    (loadBytes w'.mem (newBlock + (requestKind core newSize).header) newSize).take
        (min b.requested newSize) =
      (loadBytes s.world.mem b.ptr b.requested).take (min b.requested newSize) := by
  have usable : b.requested ≤ (b.kind core).charge (userSize s.world.mem (b.block core)) := by
    have fits := placed.fits
    cases shape : b.kind core with
    | sized cls =>
        rw [shape] at fits
        simpa [PoolKind.header, PoolKind.charge, blockExtent] using fits
    | large =>
        rw [PoolKind.charge, placed.recorded shape]
  rw [loadBytes_take _ _ _ _ (Nat.min_le_right _ _), loadBytes_take _ _ _ _ (Nat.min_le_left _ _),
    ← placed.pointer]
  exact loadBytes_eq_iff.mpr fun i within => regranted.copied i (by omega)

theorem bytes_reallocate (inv : PoolInv core platform s) {ptr newSize : Nat}
    (allowed : newSize ≤ s.world.ctx.region.totalSize) (pointer : ptr = NULL ∨ s.Live ptr) :
    heapNext s.bytes ⟨.reallocate ptr newSize, (s.perform core (.reallocate ptr newSize)).2⟩
      (s.perform core (.reallocate ptr newSize)).1.bytes := by
  rcases pointer with rfl | ⟨b, member, rfl⟩
  · rw [inv.perform_null]
    exact bytes_allocate inv allowed
  have after := inv.reallocate allowed (Or.inr ⟨b, member, rfl⟩)
  obtain ⟨word, noWrap⟩ := inv.no_wrap allowed
  unfold PoolState.perform
  dsimp only
  unfold PoolState.answered at after ⊢
  rcases inv.reallocate_outcome member word noWrap with
    ⟨w', same, refused⟩ | ⟨w', newBlock, _, same, regranted⟩
  · rw [same]
    refine Or.inr ⟨rfl, ?_⟩
    unfold PoolState.bytes
    rw [show w'.mem = s.world.mem from refused.mem]
    rfl
  · rw [same] at after ⊢
    obtain ⟨others, _⟩ := inv.others b.ptr
    have old : s.bytes b.ptr = some (loadBytes s.world.mem b.ptr b.requested) :=
      ByteHeap.contents_of_mem inv.requests_nodup (List.mem_map_of_mem member)
    have granted := bytes_grant (newBlock + (requestKind core newSize).header) newSize
      (s.spans ++ carvedSpan (requestKind core newSize) s.world.ctx w'.ctx) others
      (inv.held_others member) regranted.granted.kept
    rw [contents_dropLive] at granted
    refine Or.inl ⟨rfl, regranted.granted.ne_null _, ?_⟩
    rw [if_neg (inv.null_dead b member)]
    refine ⟨_, _, old, ?_, loadBytes_length _ _ _, ?_, granted⟩
    · by_cases kept : newBlock + (requestKind core newSize).header = b.ptr
      · exact Or.inl kept
      · have fresh := contents_fresh (m := s.world.mem) after.nodup
        rw [contents_dropLive, Function.update_of_ne kept] at fresh
        exact Or.inr fresh
    · rw [loadBytes_length]
      exact regranted.prefix_kept (inv.placed b member)

theorem bytes_free (inv : PoolInv core platform s) {ptr : Nat}
    (pointer : ptr = NULL ∨ ptrInRegion s.world.ctx ptr = false ∨ s.Live ptr) :
    s.bytes.Frees ptr (s.perform core (.free ptr)).1.bytes := by
  unfold ByteHeap.Frees PoolState.bytes PoolState.perform
  dsimp only
  rw [← contents_dropLive]
  rcases inv.free_cases pointer with ⟨nothing, _⟩ | ⟨b, member, rfl⟩
  · rw [nothing]
  · exact contents_kept (inv.others b.ptr).1 (inv.held_others member) (inv.released member).kept

/-! ## Every run -/

/-- **Each call of the pool is a call of the heap of byte blocks.** -/
theorem bytes_step {event : PoolEvent} (inv : PoolInv core platform s)
    (step : (carefulSystem core platform).Next s event s') :
    heapNext s.bytes event s'.bytes := by
  obtain ⟨call, result⟩ := event
  obtain ⟨⟨allowed, performed⟩, careful⟩ := step
  obtain rfl : (s.perform core call).2 = result := congrArg Prod.snd performed
  obtain rfl : (s.perform core call).1 = s' := congrArg Prod.fst performed
  cases call with
  | allocate size => exact bytes_allocate inv allowed
  | reallocate ptr newSize => exact bytes_reallocate inv allowed.1 allowed.2
  | free ptr => exact bytes_free inv allowed
  | write address bytes =>
      obtain ⟨b, member, lower, upper⟩ := careful address bytes rfl
      exact ByteHeap.contents_write inv.requests_apart inv.requests_nodup
        (List.mem_map_of_mem member) lower upper

/-- **The pool refines the heap of byte blocks**: every run of a careful client is
a run of the heap with the same calls and results, and the blocks of the client
hold the bytes that the heap says. -/
theorem pool_refines_heap (core : BcCore) (platform : Platform) {s t : PoolState}
    {events : List PoolEvent} (start : (carefulSystem core platform).Start s)
    (run : (carefulSystem core platform).Run s events t) :
    heapSystem.Run ByteHeap.empty events t.bytes := by
  have initial : PoolInv core platform s ∧ ByteHeap.empty = s.bytes := by
    refine ⟨PoolInv.start start, ?_⟩
    obtain ⟨_, _, _, _, _, _, _, live, _⟩ := start
    unfold PoolState.bytes
    rw [live]
    rfl
  obtain ⟨h, abstractRun, _, same⟩ := run.simulate heapSystem
    (fun s h => PoolInv core platform s ∧ h = s.bytes)
    (fun {t t' event h} related step => by
      obtain ⟨inv, rfl⟩ := related
      exact ⟨t'.bytes, bytes_step inv step, inv.step step.1, rfl⟩) initial
  exact same ▸ abstractRun

/-- The writes of a careful client. -/
def PoolState.WritesRequest (s : PoolState) : PoolCall → Prop
  | .write address bytes =>
      ∃ b ∈ s.live, b.ptr ≤ address ∧ address + bytes.length ≤ b.request.stop
  | _ => True

instance : DecidablePred s.WritesRequest
  | .write address bytes => inferInstanceAs (Decidable
      (∃ b ∈ s.live, b.ptr ≤ address ∧ address + bytes.length ≤ b.request.stop))
  | .allocate _ | .reallocate _ _ | .free _ => isTrue trivial

/-- Allowed calls with such writes are a run of a careful client. -/
theorem carefulRun_calls {calls : List PoolCall}
    (reachable : (carefulSystem core platform).Reachable s)
    (allowed : System.AllowsAll (PoolState.event core)
      (fun t call => t.Allows core call ∧ t.WritesRequest call) s calls) :
    (carefulSystem core platform).Run s (System.performAll (PoolState.event core) s calls).1
      (System.performAll (PoolState.event core) s calls).2 := by
  refine System.Reachable.run_calls ?_ reachable allowed
  rintro t call _ ⟨allows, writes⟩
  refine ⟨⟨allows, rfl⟩, ?_⟩
  rintro address bytes rfl
  exact writes

/-- A block is written and moved to a larger class beside another: the heap has the
written bytes at the new pointer, and nothing at the old one. -/
theorem pool_refines_heap_movedBlock :
    heapSystem.Run ByteHeap.empty
        [⟨.allocate 24, ⟨true, 65536⟩⟩, ⟨.allocate 40, ⟨true, 69632⟩⟩,
          ⟨.write 65536 [1, 2, 3], ⟨true, NULL⟩⟩, ⟨.reallocate 65536 5000, ⟨true, 73728⟩⟩]
        movedBlock.bytes ∧
      movedBlock.bytes 65536 = none ∧
      (movedBlock.bytes 73728).map (List.take 3) = some [1, 2, 3] := by
  have allowed : System.AllowsAll (PoolState.event BcCore.reference)
      (fun t call => t.Allows BcCore.reference call ∧ t.WritesRequest call) sixteenPages
      movingCalls := by decide +kernel
  have events : (System.performAll (PoolState.event BcCore.reference) sixteenPages movingCalls).1 =
      [⟨.allocate 24, ⟨true, 65536⟩⟩, ⟨.allocate 40, ⟨true, 69632⟩⟩,
        ⟨.write 65536 [1, 2, 3], ⟨true, NULL⟩⟩, ⟨.reallocate 65536 5000, ⟨true, 73728⟩⟩] := by
    decide +kernel
  have start : (carefulSystem BcCore.reference Platform.x86).Start sixteenPages := sixteenPages_start
  have run := carefulRun_calls (.start start) allowed
  rw [events] at run
  exact ⟨pool_refines_heap BcCore.reference Platform.x86 start run,
    by decide +kernel, by decide +kernel⟩

end BcAllocators
