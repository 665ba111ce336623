import BcAllocators.Lib.Links

/-!
# Stacks threaded through memory

A stack of nodes has its top in a word of its own, and the link of each node in
the first word of the node. A push writes the node and the top, a pop the top
alone; so a stack is kept by every change of memory that leaves those words
(`Stack.congr`).
-/

set_option autoImplicit false

namespace Machine

/-- The nodes from the word at `top`, each linked by its first word. -/
def Stack (m : Memory) (top : Nat) (nodes : List Nat) : Prop :=
  Linked (loadWord m) (loadWord m top) nodes

/-- Link a node in front of the stack. -/
def stackPush (m : Memory) (top node : Nat) : Memory :=
  storeWord (storeWord m node (loadWord m top)) top node

/-- Two words share no byte. -/
def WordsApart (a b : Nat) : Prop := a + 8 ≤ b ∨ b + 8 ≤ a

namespace Stack

variable {m m' : Memory} {top node : Nat} {nodes : List Nat}

/-- The stack reads its top and the links of its nodes. -/
theorem congr (stack : Stack m top nodes)
    (same : ∀ a ∈ top :: nodes, ∀ b, a ≤ b → b < a + 8 → m' b = m b) : Stack m' top nodes := by
  have words : ∀ a ∈ top :: nodes, loadWord m' a = loadWord m a :=
    fun a member => loadWord_congr (same a member)
  unfold Stack
  rw [words top List.mem_cons_self]
  exact Linked.congr stack fun a member => words a (List.mem_cons_of_mem top member)

theorem nodup (stack : Stack m top nodes) : nodes.Nodup := Linked.nodup stack

theorem eq_nil_iff (stack : Stack m top nodes) : nodes = [] ↔ loadWord m top = 0 :=
  Linked.eq_nil_iff stack

/-- The top of a stack with nodes is the first of them. -/
theorem top_eq (stack : Stack m top (node :: nodes)) : loadWord m top = node := stack.1

/-- A pop moves the top to the second node. -/
theorem pop (stack : Stack m top (node :: nodes)) (apart : ∀ a ∈ nodes, WordsApart top a) :
    Stack (storeWord m top (loadWord m node)) top nodes := by
  obtain ⟨here, _, rest⟩ := stack
  unfold Stack
  rw [loadWord_storeWord_of_lt (loadWord_lt m node)]
  exact rest.congr fun a member => loadWord_storeWord_of_apart (apart a member)

/-- **A push puts a node in front.** -/
theorem push (stack : Stack m top nodes) (address : 0 < node ∧ node < 2 ^ 64)
    (fresh : ∀ a ∈ top :: nodes, WordsApart node a) (apart : ∀ a ∈ nodes, WordsApart top a) :
    Stack (stackPush m top node) top (node :: nodes) := by
  have aside := fresh top List.mem_cons_self
  unfold Stack stackPush
  rw [loadWord_storeWord_of_lt address.2]
  refine ⟨rfl, Nat.ne_of_gt address.1, ?_⟩
  -- the link of the node is the old top, and the old nodes are out of reach
  rw [loadWord_storeWord_of_apart (Or.symm aside), loadWord_storeWord_of_lt (loadWord_lt m top)]
  refine Linked.congr stack fun a member => ?_
  rw [loadWord_storeWord_of_apart (apart a member),
    loadWord_storeWord_of_apart (fresh a (List.mem_cons_of_mem top member))]

end Stack

/-- A push writes the node and the top. -/
theorem changesOnly_stackPush (m : Memory) (top node : Nat) :
    ChangesOnly (Set.Ico node (node + 8) ∪ Set.Ico top (top + 8)) m (stackPush m top node) :=
  ((changesOnly_storeWord m node _).mono Set.subset_union_left).trans
    ((changesOnly_storeWord _ top node).mono Set.subset_union_right)

/-- **Pushes put the nodes in front**, the last one first. -/
theorem Stack.pushAll {top : Nat} {fresh : List Nat} :
    ∀ {m : Memory} {nodes : List Nat}, Stack m top nodes →
      (∀ a ∈ fresh, 0 < a ∧ a < 2 ^ 64) → (top :: (fresh ++ nodes)).Pairwise WordsApart →
      Stack (fresh.foldl (fun m a => stackPush m top a) m) top (fresh.reverse ++ nodes) := by
  induction fresh with
  | nil =>
      intro m nodes stack _ _
      exact stack
  | cons a rest ih =>
      intro m nodes stack addresses apart
      rw [List.foldl_cons, List.reverse_cons, List.append_assoc, List.singleton_append]
      obtain ⟨aside, apart⟩ := List.pairwise_cons.mp apart
      obtain ⟨first, others⟩ := List.pairwise_cons.mp apart
      have pushed : Stack (stackPush m top a) top (a :: nodes) := by
        refine stack.push (addresses a List.mem_cons_self) ?_ fun b member =>
          aside b (List.mem_append_right _ member)
        intro b member
        rcases List.mem_cons.mp member with rfl | inNodes
        · exact Or.symm (aside a List.mem_cons_self)
        · exact first b (List.mem_append_right _ inNodes)
      refine ih pushed (fun b member => addresses b (List.mem_cons_of_mem a member)) ?_
      -- the pushed node moves from the fresh ones to the nodes
      have perm : (a :: (rest ++ nodes)).Perm (rest ++ a :: nodes) := List.perm_middle.symm
      refine List.pairwise_cons.mpr ⟨fun b member => aside b (perm.mem_iff.mpr member), ?_⟩
      exact (perm.pairwise_iff fun h => Or.symm h).mp (List.pairwise_cons.mpr ⟨first, others⟩)

/-- Pushes write the nodes and the top. -/
theorem changesOnly_pushAll {top : Nat} {fresh : List Nat} {s : Set Nat}
    (nodes : ∀ a ∈ top :: fresh, Set.Ico a (a + 8) ⊆ s) :
    ∀ m : Memory, ChangesOnly s m (fresh.foldl (fun m a => stackPush m top a) m) := by
  induction fresh with
  | nil =>
      intro m
      exact ChangesOnly.refl s m
  | cons a rest ih =>
      intro m
      rw [List.foldl_cons]
      refine ChangesOnly.trans ((changesOnly_stackPush m top a).mono ?_) (ih ?_ _)
      · exact Set.union_subset (nodes a (by simp)) (nodes top List.mem_cons_self)
      · intro b member
        rcases List.mem_cons.mp member with rfl | inRest
        · exact nodes b List.mem_cons_self
        · exact nodes b (by simp [inRest])

end Machine
