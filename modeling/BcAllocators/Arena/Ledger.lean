import BcAllocators.Creation
import BcAllocators.Arena.Allocator

/-!
# Where the mapped blocks are

The ledger of a context gives every block that was ever mapped for it one place.
A block is a chunk of an arena, an entry of the arena cache below the count, one
of the context's own mappings, or unmapped. `Ledger` states this as two
permutations of what the kernel has recorded: what is mapped now, and everything
that was mapped. A block that is dropped or listed twice breaks one of them.

Blocks move in two ways: `mapBlock` takes one from the cache or from the kernel
(`Ledger.map`), and `releaseBlock` puts one into the cache or unmaps it
(`Ledger.release`).
-/

set_option autoImplicit false

namespace BcAllocators

open Machine

/-- Overwriting an entry of a table with the last one and shortening the table takes the
entry out. -/
theorem take_set_last_perm {α : Type} (l : List α) {i n : Nat} (le : i ≤ n) (within : n < l.length) :
    (l.take (n + 1)).Perm (l[i] :: (l.set i l[n]).take n) := by
  rw [List.take_succ_eq_append_getElem within]
  rcases Nat.lt_or_eq_of_le le with less | rfl
  · have inFront : i < (l.take n).length := by
      rw [List.length_take]
      omega
    have here : (l.take n)[i] = l[i] := List.getElem_take
    have taken := List.getElem_cons_eraseIdx_perm inFront
    have replaced := List.set_perm_cons_eraseIdx inFront l[n]
    rw [here] at taken
    rw [List.take_set]
    calc (l.take n ++ [l[n]]).Perm (l[n] :: l.take n) := List.perm_append_comm
      _ |>.Perm (l[n] :: l[i] :: (l.take n).eraseIdx i) := taken.symm.cons l[n]
      _ |>.Perm (l[i] :: l[n] :: (l.take n).eraseIdx i) := .swap _ _ _
      _ |>.Perm (l[i] :: (l.take n).set i l[n]) := replaced.symm.cons l[i]
  · rw [List.take_set_of_le (Nat.le_refl i)]
    exact List.perm_append_comm

/-! ## The cache -/

namespace ArenaCache

variable {cache : ArenaCache}

theorem blocks_length (cache : ArenaCache) : cache.blocks.length = cache.count := by
  have le := cache.count_le
  simp only [blocks, List.length_take, Vector.length_toList]
  omega

theorem blocks_empty : ArenaCache.empty.blocks = [] := by
  simp [blocks, ArenaCache.empty]

/-- An added block comes last. -/
theorem blocks_add (room : cache.count < arenaCacheSize) (e : Extent) :
    (cache.add room e).blocks = cache.blocks ++ [e] := by
  have inside : cache.count < (cache.entries.set cache.count e).toList.length := by
    simpa using room
  have step := List.take_succ_eq_append_getElem inside
  simp only [blocks, add]
  rw [step]
  congr 1
  · rw [Vector.toList_set, List.take_set_of_le (Nat.le_refl _)]
  · simp

/-- A removed block is taken out of the cache. -/
theorem blocks_remove (cache : ArenaCache) (i : Fin cache.count)
    (within : i.val < arenaCacheSize) :
    cache.blocks.Perm (cache.entries[i.val] :: (cache.remove i).blocks) := by
  have le := cache.count_le
  have some := i.isLt
  have last : cache.count - 1 < cache.entries.toList.length := by
    rw [Vector.length_toList]
    omega
  have taken := take_set_last_perm cache.entries.toList (show i.val ≤ cache.count - 1 by omega) last
  rw [show cache.count - 1 + 1 = cache.count by omega] at taken
  simpa [blocks, remove, Vector.toList_set] using taken

/-- A block that is found has the size asked for. -/
theorem find_size {mmapSize : Nat} {i : Fin cache.count} (found : cache.find mmapSize = some i)
    (within : i.val < arenaCacheSize) : (cache.entries[i.val]).size = mmapSize := by
  have here := List.find?_some found
  simpa using here

/-- The cache is searched in full. -/
theorem find_isSome_iff {mmapSize : Nat} :
    (cache.find mmapSize).isSome = true ↔ ∃ e ∈ cache.blocks, e.size = mmapSize := by
  have le := cache.count_le
  simp only [find, List.find?_isSome, List.mem_finRange, true_and, decide_eq_true_eq]
  constructor
  · rintro ⟨i, size⟩
    refine ⟨_, ?_, size⟩
    have within : i.val < arenaCacheSize := by omega
    exact (cache.blocks_remove i within).mem_iff.mpr List.mem_cons_self
  · rintro ⟨e, member, size⟩
    obtain ⟨i, small, rfl⟩ := List.getElem_of_mem member
    have inside : i < cache.count := by
      rwa [blocks_length] at small
    refine ⟨⟨i, inside⟩, ?_⟩
    simpa [blocks] using size

end ArenaCache

/-! ## The ledger -/

/-- A mapped block: whole pages, not empty, not wrapping. -/
structure BlockFit (platform : Platform) (e : Extent) : Prop where
  size_pos : 0 < e.size
  start_pos : 0 < e.start
  start_aligned : platform.pageSize ∣ e.start
  size_aligned : platform.pageSize ∣ e.size
  stop_lt : e.stop < 2 ^ 64

/-- Where the blocks of a context are: in arenas (`owned`), in the cache, among
the context's own mappings (`own`), or unmapped. Everything else that is mapped
is foreign. -/
structure Ledger (platform : Platform) (w : World) (owned own foreign : List Extent) : Prop where
  mapped : w.kernel.mapped.Perm (owned ++ w.ctx.arenaCache.blocks ++ own ++ foreign)
  logged : w.kernel.mapLog.Perm
    (owned ++ w.ctx.arenaCache.blocks ++ own ++ w.kernel.unmapLog)
  apart : (owned ++ w.ctx.arenaCache.blocks ++ own).Pairwise Extent.Apart
  fit : ∀ e ∈ owned ++ w.ctx.arenaCache.blocks, BlockFit platform e

namespace Ledger

variable {platform : Platform} {w w' : World} {owned owned' own foreign : List Extent}

/-- The order of the blocks does not matter. -/
theorem perm (ledger : Ledger platform w owned own foreign) (same : owned'.Perm owned) :
    Ledger platform w owned' own foreign where
  mapped := ledger.mapped.trans (((same.symm.append_right _).append_right _).append_right _)
  logged := ledger.logged.trans (((same.symm.append_right _).append_right _).append_right _)
  apart := (((same.append_right _).append_right own).pairwise_iff
    (fun apart => apart.symm)).mpr ledger.apart
  fit e member := ledger.fit e ((same.append_right _).mem_iff.mp member)

/-- The ledger reads the mappings and the cache. -/
theorem congr (ledger : Ledger platform w owned own foreign) (kernel : w'.kernel = w.kernel)
    (cache : w'.ctx.arenaCache = w.ctx.arenaCache) : Ledger platform w' owned own foreign where
  mapped := by rw [kernel, cache]; exact ledger.mapped
  logged := by rw [kernel, cache]; exact ledger.logged
  apart := by rw [cache]; exact ledger.apart
  fit := by rw [cache]; exact ledger.fit

/-- **A released block goes to the cache, or is unmapped.** -/
theorem release {e : Extent} (ledger : Ledger platform w owned own foreign)
    (split : owned.Perm (e :: owned')) :
    Ledger platform (releaseBlock w e.start e.size) owned' own foreign := by
  have here := ledger.perm split.symm
  simp only [releaseBlock]
  split
  · next room =>
      have blocks : (w.ctx.arenaCache.add room ⟨e.start, e.size⟩).blocks =
          w.ctx.arenaCache.blocks ++ [e] := ArenaCache.blocks_add room e
      have moved : (e :: owned' ++ w.ctx.arenaCache.blocks).Perm
          (owned' ++ (w.ctx.arenaCache.add room ⟨e.start, e.size⟩).blocks) := by
        rw [blocks, ← List.append_assoc, List.cons_append]
        exact List.perm_append_singleton e (owned' ++ w.ctx.arenaCache.blocks) |>.symm
      constructor
      · exact here.mapped.trans ((moved.append_right _).append_right _)
      · exact here.logged.trans ((moved.append_right _).append_right _)
      · exact ((moved.append_right own).pairwise_iff (fun apart => apart.symm)).mp here.apart
      · intro f member
        exact here.fit f (moved.mem_iff.mpr member)
  · constructor
    · have mapped := here.mapped.erase e
      rw [List.cons_append, List.cons_append, List.cons_append, List.erase_cons_head] at mapped
      exact mapped
    · refine here.logged.trans ?_
      simp only [List.cons_append]
      exact List.perm_middle.symm
    · have apart := here.apart
      simp only [List.cons_append] at apart
      exact (List.pairwise_cons.mp apart).2
    · intro f member
      exact here.fit f (List.mem_cons_of_mem e member)

/-- What taking a block from the cache or the kernel leaves alone. -/
structure Mapped (platform : Platform) (w : World) (size : Nat) (w' : World) (block : Nat) :
    Prop where
  ctx : ∃ cache, w'.ctx = { w.ctx with arenaCache := cache }
  mem : ChangesOnly (Extent.bytes ⟨block, size⟩) w.mem w'.mem

/-- **A mapped block comes from the cache, or is fresh.** -/
theorem map {size block : Nat} {answer : Option Nat}
    (ledger : Ledger platform w owned own foreign) (whole : platform.pageSize ∣ size)
    (mapped : mapBlock platform w size answer = some (w', block)) :
    Ledger platform w' (⟨block, size⟩ :: owned) own foreign ∧
      Mapped platform w size w' block := by
  simp only [mapBlock] at mapped
  split at mapped
  · next i found =>
      have within : i.val < arenaCacheSize := by
        have := w.ctx.arenaCache.count_le
        omega
      simp only [Option.some.injEq, Prod.mk.injEq] at mapped
      obtain ⟨rfl, rfl⟩ := mapped
      have same : (w.ctx.arenaCache.entries[i.val]) =
          ⟨(w.ctx.arenaCache.entries[i.val]).start, size⟩ := by
        rw [← ArenaCache.find_size found within]
      have taken := w.ctx.arenaCache.blocks_remove i within
      have moved : (owned ++ w.ctx.arenaCache.blocks).Perm
          (⟨(w.ctx.arenaCache.entries[i.val]).start, size⟩ :: owned ++
            (w.ctx.arenaCache.remove i).blocks) := by
        rw [← same]
        exact (taken.append_left owned).trans List.perm_middle
      refine ⟨?_, ⟨⟨_, rfl⟩, ChangesOnly.refl _ _⟩⟩
      constructor
      · exact ledger.mapped.trans ((moved.append_right _).append_right _)
      · exact ledger.logged.trans ((moved.append_right _).append_right _)
      · exact ((moved.append_right own).pairwise_iff (fun apart => apart.symm)).mp ledger.apart
      · intro f member
        exact ledger.fit f (moved.mem_iff.mpr member)
  · split at mapped
    · simp at mapped
    · next kernel m a granted =>
        simp only [Option.some.injEq, Prod.mk.injEq] at mapped
        obtain ⟨rfl, rfl⟩ := mapped
        obtain ⟨admissible, _, rfl, rfl⟩ := platformMap_eq_some.mp granted
        obtain ⟨sizePos, startPos, aligned, stop, apart⟩ := admissible
        refine ⟨?_, ⟨⟨_, rfl⟩, changesOnly_fillBytes _ _ _ _⟩⟩
        constructor
        · exact ledger.mapped.cons _
        · exact ledger.logged.cons _
        · refine List.pairwise_cons.mpr ⟨fun f member => apart f ?_, ledger.apart⟩
          exact ledger.mapped.mem_iff.mpr (List.mem_append_left _ member)
        · intro f member
          rcases List.mem_cons.mp member with rfl | old
          · exact ⟨sizePos, startPos, Nat.dvd_of_mod_eq_zero aligned, whole, stop⟩
          · exact ledger.fit f old

end Ledger

end BcAllocators
