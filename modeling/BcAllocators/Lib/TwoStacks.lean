import Mathlib

/-!
# Two stacks

A stack with a front of bounded size: a push goes to the front while it has room and
to the back otherwise, and a pop takes the top of the front, or of the back when the
front is empty. Nothing is lost or doubled: a push adds its entry to those that are
there (`push_perm`), and a pop takes one of them away (`pop_perm`).
-/

set_option autoImplicit false

namespace Machine

universe u

/-- A stack in front of another one; the tops come first. -/
structure TwoStacks (α : Type u) where
  front : List α
  back : List α

namespace TwoStacks

variable {α : Type u} {room : Nat} {s s' : TwoStacks α} {x : α}

def empty : TwoStacks α := ⟨[], []⟩

/-- The entries of both stacks, those of the front first. -/
def entries (s : TwoStacks α) : List α := s.front ++ s.back

/-- Push on the front, or on the back when the front is full. -/
def push (room : Nat) (s : TwoStacks α) (x : α) : TwoStacks α :=
  if s.front.length < room then ⟨x :: s.front, s.back⟩ else ⟨s.front, x :: s.back⟩

/-- Take the top of the front, or of the back when the front is empty. -/
def pop : TwoStacks α → TwoStacks α × Option α
  | ⟨x :: front, back⟩ => (⟨front, back⟩, some x)
  | ⟨[], x :: back⟩ => (⟨[], back⟩, some x)
  | ⟨[], []⟩ => (⟨[], []⟩, none)

/-- A push adds its entry. -/
theorem push_perm (room : Nat) (s : TwoStacks α) (x : α) :
    (s.push room x).entries.Perm (x :: s.entries) := by
  unfold push
  split
  · exact .refl _
  · exact List.perm_middle

/-- A pop takes one entry away. -/
theorem pop_perm (popped : s.pop = (s', some x)) : s.entries.Perm (x :: s'.entries) := by
  obtain ⟨front, back⟩ := s
  cases front with
  | cons y front =>
      cases popped
      exact .refl _
  | nil =>
      cases back with
      | cons y back =>
          cases popped
          exact .refl _
      | nil => cases popped

/-- A pop takes nothing exactly when there is nothing. -/
theorem pop_eq_none_iff : s.pop.2 = none ↔ s.front = [] ∧ s.back = [] := by
  obtain ⟨front, back⟩ := s
  cases front with
  | cons y front => simp [pop]
  | nil =>
      cases back with
      | cons y back => simp [pop]
      | nil => simp [pop]

/-- A pop that takes nothing changes nothing. -/
theorem pop_of_none (popped : s.pop = (s', none)) : s' = s := by
  obtain ⟨front, back⟩ := s
  cases front with
  | cons y front => cases popped
  | nil =>
      cases back with
      | cons y back => cases popped
      | nil => exact (congrArg Prod.fst popped).symm

end TwoStacks

end Machine
