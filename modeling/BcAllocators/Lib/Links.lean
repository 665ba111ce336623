import BcAllocators.Lib.Memory

/-!
# Linked lists in memory

A singly linked list is a first address and a function that gives the next
address of a node; the null address ends it. For a list threaded through memory
the function loads a word of the node.

A finite linked list repeats no node (`Linked.nodup`), because the rest of the
list is determined by the node it starts from (`Linked.unique`). The list reads
only the links of its own nodes (`Linked.congr`), which is the whole of its
footprint.
-/

set_option autoImplicit false

namespace Machine

/-- The nodes met from `p` by following `next`, up to the null address. -/
def Linked (next : Nat → Nat) : Nat → List Nat → Prop
  | p, [] => p = 0
  | p, a :: rest => p = a ∧ a ≠ 0 ∧ Linked next (next a) rest

namespace Linked

variable {next next' : Nat → Nat} {p : Nat} {l : List Nat}

/-- A list from a first address that is known by another name. -/
theorem start (linked : Linked next p l) {q : Nat} (same : q = p) : Linked next q l :=
  same ▸ linked

/-- The empty list is the one that starts at the null address. -/
theorem eq_nil_iff (linked : Linked next p l) : l = [] ↔ p = 0 := by
  cases l with
  | nil => exact ⟨fun _ => linked, fun _ => rfl⟩
  | cons a rest =>
      obtain ⟨same, nonnull, _⟩ := linked
      exact ⟨fun empty => absurd empty (List.cons_ne_nil a rest),
        fun null => absurd (same.symm.trans null) nonnull⟩

/-- A list that does not start at the null address has a first node. -/
theorem exists_cons (linked : Linked next p l) (nonnull : p ≠ 0) :
    ∃ rest, l = p :: rest ∧ Linked next (next p) rest := by
  cases l with
  | nil => exact absurd linked nonnull
  | cons a rest =>
      obtain ⟨rfl, _, tail⟩ := linked
      exact ⟨rest, rfl, tail⟩

/-- Put a node in front. -/
theorem push {a : Nat} (linked : Linked next p l) (nonnull : a ≠ 0) (link : next a = p) :
    Linked next a (a :: l) :=
  ⟨rfl, nonnull, link ▸ linked⟩

/-- A linked list reads only the links of its nodes. -/
theorem congr (linked : Linked next p l) (same : ∀ a ∈ l, next' a = next a) :
    Linked next' p l := by
  induction l generalizing p with
  | nil => exact linked
  | cons a rest ih =>
      obtain ⟨here, nonnull, tail⟩ := linked
      refine ⟨here, nonnull, ih ?_ fun b member => same b (List.mem_cons_of_mem a member)⟩
      rwa [same a List.mem_cons_self]

/-- The first address determines the list. -/
theorem unique {l' : List Nat} (linked : Linked next p l) (linked' : Linked next p l') :
    l = l' := by
  induction l generalizing p l' with
  | nil => exact ((linked'.eq_nil_iff).mpr linked).symm
  | cons a rest ih =>
      obtain ⟨rfl, nonnull, tail⟩ := linked
      obtain ⟨rest', rfl, tail'⟩ := linked'.exists_cons nonnull
      rw [ih tail tail']

/-- From each node the rest of the list is linked. -/
theorem suffix {before after : List Nat} (linked : Linked next p (before ++ after)) :
    ∃ q, Linked next q after := by
  induction before generalizing p with
  | nil => exact ⟨p, linked⟩
  | cons a rest ih => exact ih linked.2.2

/-- **A finite linked list repeats no node.** -/
theorem nodup (linked : Linked next p l) : l.Nodup := by
  induction l generalizing p with
  | nil => exact List.nodup_nil
  | cons a rest ih =>
      obtain ⟨same, nonnull, tail⟩ := linked
      refine List.nodup_cons.mpr ⟨fun member => ?_, ih tail⟩
      -- a second occurrence would start a strictly shorter list from the same address
      obtain ⟨before, after, split⟩ := List.mem_iff_append.mp member
      obtain ⟨q, again⟩ := suffix (split ▸ tail)
      obtain ⟨rfl, _, shorter⟩ := again
      have lengths := congrArg List.length (unique tail shorter)
      rw [split] at lengths
      simp only [List.length_append, List.length_cons] at lengths
      omega

/-- A list starts at one address, whatever the links. -/
theorem start_eq {q : Nat} (linked : Linked next p l) (linked' : Linked next' q l) : p = q := by
  cases l with
  | nil => exact Eq.trans linked (Eq.symm linked')
  | cons a rest => exact linked.1.trans linked'.1.symm

/-- **Links that link the same list are the same on it.** -/
theorem next_eq {q : Nat} (linked : Linked next p l) (linked' : Linked next' q l) :
    ∀ a ∈ l, next' a = next a := by
  induction l generalizing p q with
  | nil =>
      intro a member
      cases member
  | cons b rest ih =>
      obtain ⟨_, _, tail⟩ := linked
      obtain ⟨_, _, tail'⟩ := linked'
      intro a member
      rcases List.mem_cons.mp member with rfl | inRest
      · exact (tail.start_eq tail').symm
      · exact ih tail tail' a inRest

/-- Link a node after the last one. -/
theorem snoc {a last : Nat} {front : List Nat} (linked : Linked next p (front ++ [last]))
    (same : ∀ b ∈ front, next' b = next b) (link : next' last = a) (nonnull : a ≠ 0)
    (ends : next' a = 0) : Linked next' p (front ++ [last] ++ [a]) := by
  induction front generalizing p with
  | nil =>
      obtain ⟨here, lastNonnull, _⟩ := linked
      exact ⟨here, lastNonnull, link, nonnull, ends⟩
  | cons b rest ih =>
      obtain ⟨here, bNonnull, tail⟩ := linked
      refine ⟨here, bNonnull, ?_⟩
      rw [same b List.mem_cons_self]
      exact ih tail fun c member => same c (List.mem_cons_of_mem b member)

end Linked

/-! ## Walks -/

/-- The nodes met from an address in a number of steps. -/
def walk (next : Nat → Nat) : Nat → Nat → List Nat
  | 0, _ => []
  | fuel + 1, p => if p = 0 then [] else p :: walk next fuel (next p)

/-- **A walk with enough steps meets the nodes of the list.** -/
theorem Linked.walk_eq {next : Nat → Nat} {l : List Nat} :
    ∀ {fuel p : Nat}, Linked next p l → l.length < fuel → walk next fuel p = l := by
  induction l with
  | nil =>
      intro fuel p linked enough
      obtain ⟨fuel, rfl⟩ := Nat.exists_eq_add_one_of_ne_zero (Nat.ne_zero_of_lt enough)
      rw [walk, if_pos (show p = 0 from linked)]
  | cons a rest ih =>
      intro fuel p linked enough
      obtain ⟨fuel, rfl⟩ := Nat.exists_eq_add_one_of_ne_zero (Nat.ne_zero_of_lt enough)
      obtain ⟨rfl, nonnull, tail⟩ := linked
      rw [walk, if_neg nonnull, ih tail (Nat.lt_of_succ_lt_succ enough)]

end Machine
