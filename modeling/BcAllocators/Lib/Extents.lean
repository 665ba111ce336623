import BcAllocators.Lib.Memory

/-!
# Extents of addresses

An extent is a start address and a size. Two extents are apart when neither
reaches into the other, and a list of extents tiles an interval when each one
starts where the one before it stops.

Two facts about lists of extents carry the accounting of an allocator. Extents
that are pairwise apart and lie in an interval have sizes whose sum is at most
the length of the interval (`sum_size_le`), so sums of sizes of live blocks do
not wrap. The members of a tiling are pairwise apart (`Tiles.pairwise`).
-/

set_option autoImplicit false

namespace Machine

/-- A range of addresses. -/
structure Extent where
  start : Nat
  size : Nat
deriving DecidableEq, Repr

namespace Extent

/-- The first address after the extent. -/
def stop (e : Extent) : Nat := e.start + e.size

/-- The addresses of the extent. -/
def bytes (e : Extent) : Set Nat := Set.Ico e.start e.stop

/-- Neither extent reaches into the other. -/
def Apart (e f : Extent) : Prop := e.stop ≤ f.start ∨ f.stop ≤ e.start

instance (e f : Extent) : Decidable (e.Apart f) := inferInstanceAs (Decidable (_ ∨ _))

theorem mem_bytes {e : Extent} {a : Nat} : a ∈ e.bytes ↔ e.start ≤ a ∧ a < e.start + e.size :=
  Iff.rfl

theorem Apart.symm {e f : Extent} (apart : e.Apart f) : f.Apart e := Or.symm apart

/-- Extents that are apart share no address. -/
theorem Apart.disjoint {e f : Extent} (apart : e.Apart f) {a : Nat} (member : a ∈ e.bytes) :
    a ∉ f.bytes := by
  unfold Apart stop at apart
  rw [mem_bytes] at *
  omega

/-- A part of an extent is apart from whatever the whole is apart from. -/
theorem Apart.mono {e e' f f' : Extent} (apart : e.Apart f)
    (he : e.start ≤ e'.start ∧ e'.stop ≤ e.stop) (hf : f.start ≤ f'.start ∧ f'.stop ≤ f.stop) :
    e'.Apart f' := by
  unfold Apart at *
  omega

instance : Std.Symm Apart := ⟨fun _ _ apart => apart.symm⟩

/-- Distinct members of a list of extents that are pairwise apart are apart. -/
theorem apart_of_mem {l : List Extent} (pairwise : l.Pairwise Apart) {e f : Extent}
    (he : e ∈ l) (hf : f ∈ l) (different : e ≠ f) : e.Apart f :=
  pairwise.forall he hf different

/-! ## Sums of sizes -/

/-- The addresses of a list of extents. -/
def cover : List Extent → Finset Nat
  | [] => ∅
  | e :: rest => Finset.Ico e.start e.stop ∪ cover rest

theorem mem_cover {l : List Extent} {a : Nat} : a ∈ cover l ↔ ∃ e ∈ l, a ∈ e.bytes := by
  induction l with
  | nil => simp [cover]
  | cons e rest ih =>
      simp only [cover, Finset.mem_union, Finset.mem_Ico, ih, List.mem_cons, exists_eq_or_imp,
        mem_bytes, stop]

theorem card_cover {l : List Extent} (pairwise : l.Pairwise Apart) :
    (cover l).card = (l.map size).sum := by
  induction l with
  | nil => rfl
  | cons e rest ih =>
      obtain ⟨head, tail⟩ := List.pairwise_cons.mp pairwise
      have disjoint : Disjoint (Finset.Ico e.start e.stop) (cover rest) := by
        rw [Finset.disjoint_left]
        intro a member inRest
        obtain ⟨f, inList, inside⟩ := mem_cover.mp inRest
        exact (head f inList).disjoint (Finset.mem_Ico.mp member) inside
      rw [cover, Finset.card_union_of_disjoint disjoint, Nat.card_Ico, ih tail, List.map_cons,
        List.sum_cons, stop, Nat.add_sub_cancel_left]

/-- **Extents that are pairwise apart fit in the interval that contains them.** -/
theorem sum_size_le {l : List Extent} (pairwise : l.Pairwise Apart) {lo hi : Nat}
    (inside : ∀ e ∈ l, lo ≤ e.start ∧ e.stop ≤ hi) : (l.map size).sum ≤ hi - lo := by
  rw [← card_cover pairwise, ← Nat.card_Ico]
  refine Finset.card_le_card fun a member => ?_
  obtain ⟨e, inList, within⟩ := mem_cover.mp member
  have bounds := inside e inList
  rw [mem_bytes] at within
  unfold stop at bounds
  rw [Finset.mem_Ico]
  omega

/-! ## Tilings -/

/-- Each extent starts where the one before it stops, from `lo` to `hi`. -/
def Tiles : Nat → List Extent → Nat → Prop
  | lo, [], hi => lo = hi
  | lo, e :: rest, hi => e.start = lo ∧ Tiles e.stop rest hi

theorem Tiles.le {lo hi : Nat} {l : List Extent} (tiles : Tiles lo l hi) : lo ≤ hi := by
  induction l generalizing lo with
  | nil => exact Nat.le_of_eq tiles
  | cons e rest ih =>
      have := ih tiles.2
      have := tiles.1
      unfold stop at *
      omega

/-- The members of a tiling lie in the interval. -/
theorem Tiles.inside {lo hi : Nat} {l : List Extent} (tiles : Tiles lo l hi) :
    ∀ e ∈ l, lo ≤ e.start ∧ e.stop ≤ hi := by
  induction l generalizing lo with
  | nil => intro e member; simp at member
  | cons e rest ih =>
      intro f member
      have start := tiles.1
      have tail := tiles.2.le
      rcases List.mem_cons.mp member with rfl | inRest
      · exact ⟨Nat.le_of_eq start.symm, tail⟩
      · have bounds := ih tiles.2 f inRest
        unfold stop at *
        omega

/-- **The members of a tiling are pairwise apart.** -/
theorem Tiles.pairwise {lo hi : Nat} {l : List Extent} (tiles : Tiles lo l hi) :
    l.Pairwise Apart := by
  induction l generalizing lo with
  | nil => exact List.Pairwise.nil
  | cons e rest ih =>
      exact List.pairwise_cons.mpr
        ⟨fun f member => Or.inl (tiles.2.inside f member).1, ih tiles.2⟩

/-- Tiles whose sizes are multiples of a unit start and end at multiples of it. -/
theorem Tiles.aligned {lo hi unit : Nat} {l : List Extent} (tiles : Tiles lo l hi)
    (start : unit ∣ lo) (sizes : ∀ e ∈ l, unit ∣ e.size) :
    unit ∣ hi ∧ ∀ e ∈ l, unit ∣ e.start := by
  induction l generalizing lo with
  | nil =>
      have same : lo = hi := tiles
      exact ⟨same ▸ start, by simp⟩
  | cons e rest ih =>
      have here : unit ∣ e.start := tiles.1 ▸ start
      have stop : unit ∣ e.stop := Nat.dvd_add here (sizes e List.mem_cons_self)
      obtain ⟨top, starts⟩ := ih tiles.2 stop fun f member =>
        sizes f (List.mem_cons_of_mem e member)
      refine ⟨top, fun f member => ?_⟩
      rcases List.mem_cons.mp member with rfl | inRest
      · exact here
      · exact starts f inRest

/-- Extend a tiling at its upper end. -/
theorem Tiles.snoc {lo mid hi : Nat} {l : List Extent} (tiles : Tiles lo l mid) {e : Extent}
    (start : e.start = mid) (stop : e.stop = hi) : Tiles lo (l ++ [e]) hi := by
  induction l generalizing lo with
  | nil => exact ⟨start.trans (show lo = mid from tiles).symm, stop⟩
  | cons f rest ih => exact ⟨tiles.1, ih tiles.2⟩

end Extent

end Machine
