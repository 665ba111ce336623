import BcAllocators.Lib.Transitions

/-!
# Components that share a state

Two components take turns on one state, in any order. Each has an invariant of its
own, and each guarantees something about its steps. When the invariant of each is
stable under what the other guarantees, both hold in every state that the two reach
together (`interleave_invariant`), and neither has to be proved again against the
steps of the other.

A component may be followed on its own. When the steps of the other do not disturb
the relation to an abstract system, a run of both is a run of the abstract system on
the labels of the one (`Run.project`). An invariant of a component may also speak of the
labels of its own steps (`interleave_traced`).
-/

set_option autoImplicit false

namespace Machine

universe u v v' w

namespace System

variable {State : Type u} {Label : Type v} {Label' : Type v'} {Abstract : Type w}

/-! ## Rely and guarantee -/

/-- Two step relations on one state, in turns. -/
def interleave (start : State → Prop) (first : State → Label → State → Prop)
    (second : State → Label' → State → Prop) : System State (Label ⊕ Label') where
  Start := start
  Next s label s' := label.elim (first s · s') (second s · s')

/-- The steps of a component keep its invariant, and do no more than it guarantees. -/
structure Guarantees (next : State → Label → State → Prop) (Inv : State → Prop)
    (guarantee : State → State → Prop) : Prop where
  keeps : ∀ {s s' : State} {label : Label}, Inv s → next s label s' → Inv s'
  within : ∀ {s s' : State} {label : Label}, Inv s → next s label s' → guarantee s s'

/-- An invariant is stable under what others may do. -/
def Stable (Inv : State → Prop) (rely : State → State → Prop) : Prop :=
  ∀ {s s' : State}, Inv s → rely s s' → Inv s'

section interleave

variable {start : State → Prop} {first : State → Label → State → Prop}
  {second : State → Label' → State → Prop} {Inv Inv' : State → Prop}
  {guarantee guarantee' : State → State → Prop}

/-- **A step of either component keeps both invariants.** -/
theorem interleave_step (one : Guarantees first Inv guarantee)
    (other : Guarantees second Inv' guarantee') (stable : Stable Inv guarantee')
    (stable' : Stable Inv' guarantee) {s s' : State} {label : Label ⊕ Label'}
    (both : Inv s ∧ Inv' s) (step : (interleave start first second).Next s label s') :
    Inv s' ∧ Inv' s' := by
  cases label with
  | inl own => exact ⟨one.keeps both.1 step, stable' both.2 (one.within both.1 step)⟩
  | inr own => exact ⟨stable both.1 (other.within both.2 step), other.keeps both.2 step⟩

/-- **Both invariants hold in every state that two components reach together.** -/
theorem interleave_invariant (one : Guarantees first Inv guarantee)
    (other : Guarantees second Inv' guarantee') (stable : Stable Inv guarantee')
    (stable' : Stable Inv' guarantee) (initial : ∀ s, start s → Inv s ∧ Inv' s) {t : State}
    (reachable : (interleave start first second).Reachable t) : Inv t ∧ Inv' t :=
  reachable.invariant initial fun both step => interleave_step one other stable stable' both step

end interleave

/-! ## Traced invariants -/

/-- The labels of a run that belong to the first component. -/
def firstLabels (labels : List (Label ⊕ Label')) : List Label := labels.filterMap Sum.getLeft?

/-- The labels of a run that belong to the second component. -/
def secondLabels (labels : List (Label ⊕ Label')) : List Label' := labels.filterMap Sum.getRight?

@[simp] theorem firstLabels_inl (labels : List (Label ⊕ Label')) (label : Label) :
    firstLabels (labels ++ [.inl label]) = firstLabels labels ++ [label] := by
  simp [firstLabels]

@[simp] theorem firstLabels_inr (labels : List (Label ⊕ Label')) (label : Label') :
    firstLabels (labels ++ [.inr label]) = firstLabels labels := by
  simp [firstLabels]

@[simp] theorem secondLabels_inl (labels : List (Label ⊕ Label')) (label : Label) :
    secondLabels (labels ++ [.inl label]) = secondLabels labels := by
  simp [secondLabels]

@[simp] theorem secondLabels_inr (labels : List (Label ⊕ Label')) (label : Label') :
    secondLabels (labels ++ [.inr label]) = secondLabels labels ++ [label] := by
  simp [secondLabels]

@[simp] theorem firstLabels_map_inl (labels : List Label) :
    firstLabels (labels.map (Sum.inl : Label → Label ⊕ Label')) = labels := by
  induction labels with
  | nil => rfl
  | cons label labels ih => exact congrArg (label :: ·) ih

/-- The steps of a component keep an invariant that may speak of the labels of its own
steps so far, and do no more than it guarantees. -/
structure TracedGuarantees (next : State → Label → State → Prop)
    (Inv : List Label → State → Prop) (guarantee : State → State → Prop) : Prop where
  keeps : ∀ {before : List Label} {s s' : State} {label : Label}, Inv before s →
    next s label s' → Inv (before ++ [label]) s'
  within : ∀ {before : List Label} {s s' : State} {label : Label}, Inv before s →
    next s label s' → guarantee s s'

section traced

variable {start : State → Prop} {first : State → Label → State → Prop}
  {second : State → Label' → State → Prop} {Inv : List Label → State → Prop}
  {Inv' : List Label' → State → Prop} {guarantee guarantee' : State → State → Prop}

/-- Each invariant speaks of the labels of its own component. -/
def BothTraced (Inv : List Label → State → Prop) (Inv' : List Label' → State → Prop)
    (labels : List (Label ⊕ Label')) (s : State) : Prop :=
  Inv (firstLabels labels) s ∧ Inv' (secondLabels labels) s

/-- **Each component keeps an invariant about its own steps in any run of both.** -/
theorem interleave_traced (one : TracedGuarantees first Inv guarantee)
    (other : TracedGuarantees second Inv' guarantee')
    (stable : ∀ before, Stable (Inv before) guarantee')
    (stable' : ∀ before, Stable (Inv' before) guarantee) {s t : State}
    {labels : List (Label ⊕ Label')} (run : (interleave start first second).Run s labels t)
    (initial : Inv [] s ∧ Inv' [] s) :
    BothTraced Inv Inv' labels t := by
  have keeps : ∀ {before : List (Label ⊕ Label')} {t t' : State} {label : Label ⊕ Label'},
      BothTraced Inv Inv' before t → (interleave start first second).Next t label t' →
      BothTraced Inv Inv' (before ++ [label]) t' := by
    rintro before t t' label ⟨mine, yours⟩ step
    unfold BothTraced
    cases label with
    | inl own =>
        rw [firstLabels_inl, secondLabels_inl]
        exact ⟨one.keeps mine step, stable' _ yours (one.within mine step)⟩
    | inr own =>
        rw [firstLabels_inr, secondLabels_inr]
        exact ⟨stable _ mine (other.within yours step), other.keeps yours step⟩
  exact run.traced keeps initial

end traced

/-! ## Projections -/

variable {system : System State Label}

/-- **A run is a run of an abstract system on the labels that it observes**, when the
other labels leave the relation between the two alone. -/
theorem Run.project (abstract : System Abstract Label') (observe : Label → Option Label')
    (related : State → Abstract → Prop)
    (own : ∀ {t t' : State} {label : Label} {seen : Label'} {a : Abstract}, related t a →
      system.Next t label t' → observe label = some seen →
      ∃ a', abstract.Next a seen a' ∧ related t' a')
    (others : ∀ {t t' : State} {label : Label} {a : Abstract}, related t a →
      system.Next t label t' → observe label = none → related t' a)
    {s t : State} {labels : List Label} (run : system.Run s labels t) {a : Abstract}
    (initial : related s a) :
    ∃ a', abstract.Run a (labels.filterMap observe) a' ∧ related t a' := by
  induction run with
  | nil => exact ⟨a, .nil a, initial⟩
  | @snoc t t' labels label _ step ih =>
      obtain ⟨b, abstractRun, here⟩ := ih
      cases seen : observe label with
      | none =>
          refine ⟨b, ?_, others here step seen⟩
          rwa [List.filterMap_append, List.filterMap_cons_none seen, List.filterMap_nil,
            List.append_nil]
      | some label' =>
          obtain ⟨b', abstractStep, there⟩ := own here step seen
          refine ⟨b', ?_, there⟩
          rw [List.filterMap_append, List.filterMap_cons_some seen, List.filterMap_nil]
          exact abstractRun.snoc abstractStep

end System

end Machine
