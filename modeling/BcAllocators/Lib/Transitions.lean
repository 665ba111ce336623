import Mathlib

/-!
# Systems that take steps

A system is a set of start states and a labelled step relation. A run is a
finite sequence of steps, and a state is reachable when some run leads to it
from a start state.

An invariant holds at the start and is kept by each step, so it holds in every
reachable state (`Reachable.invariant`). A traced invariant may speak of the
labels of the steps taken so far (`Run.traced`). A forward simulation carries every
run of one system to a run of another with the same labels
(`Run.simulate`). An observer keeps a state of its own beside a system, and follows its
runs when each step tells it what it has to know (`Run.observe`).

`PeakRun` is a run with the greatest count that it has seen, for a count of the
states. An invariant may relate a state to the peak before it (`PeakRun.invariant`).
A restriction keeps the steps that a condition allows. A run is a run of another system
when an invariant makes each of its steps one of that system (`PeakRun.transfer`).

A list of calls, each with what it leads to, is a run when each call is allowed at its turn
(`Reachable.run_calls`), which can be decided; its peak can be computed
(`PeakRun.of_calls`).
-/

set_option autoImplicit false

namespace Machine

universe u v w

/-- Start states and labelled steps. -/
structure System (State : Type u) (Label : Type v) where
  Start : State → Prop
  Next : State → Label → State → Prop

namespace System

variable {State : Type u} {Label : Type v} (system : System State Label)

/-- A finite sequence of steps. -/
inductive Run : State → List Label → State → Prop where
  | nil (s : State) : Run s [] s
  | snoc {s t t' : State} {labels : List Label} {label : Label} :
      Run s labels t → system.Next t label t' → Run s (labels ++ [label]) t'

/-- The states that runs lead to from a start state. -/
def Reachable (t : State) : Prop := ∃ s labels, system.Start s ∧ system.Run s labels t

variable {system}

theorem Reachable.start {s : State} (start : system.Start s) : system.Reachable s :=
  ⟨s, [], start, .nil s⟩

theorem Reachable.next {t t' : State} {label : Label} (reachable : system.Reachable t)
    (step : system.Next t label t') : system.Reachable t' := by
  obtain ⟨s, labels, start, run⟩ := reachable
  exact ⟨s, labels ++ [label], start, run.snoc step⟩

/-- A run may be continued by a run. -/
theorem Run.append {s t t' : State} {labels labels' : List Label} (first : system.Run s labels t)
    (second : system.Run t labels' t') : system.Run s (labels ++ labels') t' := by
  induction second with
  | nil =>
      rw [List.append_nil]
      exact first
  | snoc _ step ih =>
      rw [← List.append_assoc]
      exact ih.snoc step

theorem Run.reachable {s t : State} {labels : List Label} (run : system.Run s labels t)
    (start : system.Start s) : system.Reachable t := ⟨s, labels, start, run⟩

/-- **What each step keeps, a run keeps.** -/
theorem Run.invariant {Inv : State → Prop}
    (keeps : ∀ {t t' : State} {label : Label}, Inv t → system.Next t label t' → Inv t')
    {s t : State} {labels : List Label} (run : system.Run s labels t) (initial : Inv s) :
    Inv t := by
  induction run with
  | nil => exact initial
  | snoc _ step ih => exact keeps ih step

/-- **An invariant holds in every reachable state.** -/
theorem Reachable.invariant {Inv : State → Prop} (initial : ∀ s, system.Start s → Inv s)
    (keeps : ∀ {t t' : State} {label : Label}, Inv t → system.Next t label t' → Inv t')
    {t : State} (reachable : system.Reachable t) : Inv t := by
  obtain ⟨s, labels, start, run⟩ := reachable
  exact run.invariant keeps (initial s start)

/-- An invariant may speak of the labels of the run so far. -/
theorem Run.traced {Inv : List Label → State → Prop}
    (keeps : ∀ {before : List Label} {t t' : State} {label : Label},
      Inv before t → system.Next t label t' → Inv (before ++ [label]) t')
    {s t : State} {labels : List Label} (run : system.Run s labels t) (initial : Inv [] s) :
    Inv labels t := by
  induction run with
  | nil => exact initial
  | snoc _ step ih => exact keeps ih step

/-- **A forward simulation carries runs to runs.** -/
theorem Run.simulate {Abstract : Type w} (abstract : System Abstract Label)
    (related : State → Abstract → Prop)
    (steps : ∀ {t t' : State} {label : Label} {a : Abstract}, related t a →
      system.Next t label t' → ∃ a', abstract.Next a label a' ∧ related t' a')
    {s t : State} {labels : List Label} (run : system.Run s labels t) {a : Abstract}
    (initial : related s a) : ∃ a', abstract.Run a labels a' ∧ related t a' := by
  induction run with
  | nil => exact ⟨a, .nil a, initial⟩
  | snoc _ step ih =>
      obtain ⟨b, abstractRun, here⟩ := ih
      obtain ⟨b', abstractStep, there⟩ := steps here step
      exact ⟨b', abstractRun.snoc abstractStep, there⟩

variable (system) in
/-- The system with an observer, which keeps a state of its own. -/
def observe {Observer : Type w} (follows : State → Label → Observer → Observer → Prop) :
    System (State × Observer) Label where
  Start p := system.Start p.1
  Next p label q := system.Next p.1 label q.1 ∧ follows p.1 label p.2 q.2

/-- **An observer that always knows a value of the state** follows every run. -/
theorem Run.observe {Observer : Type w} {follows : State → Label → Observer → Observer → Prop}
    {value : State → Observer} {Inv : State → Prop}
    (steps : ∀ {t t' : State} {label : Label}, Inv t → system.Next t label t' →
      follows t label (value t) (value t') ∧ Inv t')
    {s t : State} {labels : List Label} (run : system.Run s labels t) (initial : Inv s) :
    (system.observe follows).Run (s, value s) labels (t, value t) ∧ Inv t := by
  induction run with
  | nil => exact ⟨.nil _, initial⟩
  | snoc _ step ih =>
      obtain ⟨before, inv⟩ := ih
      obtain ⟨followed, after⟩ := steps inv step
      exact ⟨before.snoc ⟨step, followed⟩, after⟩

variable (system) in
/-- The steps that a condition allows. -/
def restrict (allowed : State → Label → State → Prop) : System State Label where
  Start := system.Start
  Next s label t := system.Next s label t ∧ allowed s label t

/-! ## Peaks -/

variable (system) in
/-- A run, with the greatest count of a state on it. -/
inductive PeakRun (count : State → Nat) : State → List Label → State → Nat → Prop where
  | nil (s : State) : PeakRun count s [] s (count s)
  | snoc {s t t' : State} {labels : List Label} {label : Label} {peak : Nat} :
      PeakRun count s labels t peak → system.Next t label t' →
        PeakRun count s (labels ++ [label]) t' (max peak (count t'))

namespace PeakRun

variable {count : State → Nat} {s t t' : State} {labels labels' : List Label} {peak peak' : Nat}

theorem run (peaked : system.PeakRun count s labels t peak) : system.Run s labels t := by
  induction peaked with
  | nil => exact .nil _
  | snoc _ step ih => exact ih.snoc step

/-- A run has a peak: what is said of every run with its peak is said of every run. -/
theorem of_run (run : system.Run s labels t) : ∃ peak, system.PeakRun count s labels t peak := by
  induction run with
  | nil => exact ⟨_, .nil _⟩
  | snoc _ step ih =>
      obtain ⟨peak, peaked⟩ := ih
      exact ⟨_, peaked.snoc step⟩

/-- **A run is a run of another system** when an invariant makes each step one of it. -/
theorem transfer {other : System State Label} {Inv : State → Prop}
    (steps : ∀ {t t' : State} {label : Label}, Inv t → system.Next t label t' →
      other.Next t label t' ∧ Inv t')
    (peaked : system.PeakRun count s labels t peak) (initial : Inv s) :
    other.PeakRun count s labels t peak ∧ Inv t := by
  induction peaked with
  | nil => exact ⟨.nil _, initial⟩
  | snoc _ step ih =>
      obtain ⟨before, inv⟩ := ih
      obtain ⟨next, after⟩ := steps inv step
      exact ⟨before.snoc next, after⟩

/-- **What each step keeps of a state and the peak before it, a run keeps.** -/
theorem invariant {Inv : Nat → State → Prop}
    (keeps : ∀ {peak : Nat} {t t' : State} {label : Label}, Inv peak t → system.Next t label t' →
      Inv (max peak (count t')) t')
    (peaked : system.PeakRun count s labels t peak) (initial : Inv (count s) s) : Inv peak t := by
  induction peaked with
  | nil => exact initial
  | snoc _ step ih => exact keeps ih step

/-- The peak of a run in two parts is the greater of their peaks. -/
theorem append (first : system.PeakRun count s labels t peak)
    (second : system.PeakRun count t labels' t' peak') :
    system.PeakRun count s (labels ++ labels') t' (max peak peak') := by
  induction second with
  | nil =>
      rw [List.append_nil]
      have within : count t ≤ peak := by
        cases first with
        | nil => exact Nat.le_refl _
        | snoc _ _ => exact Nat.le_max_right _ _
      rwa [Nat.max_eq_left within]
  | snoc _ step ih =>
      rw [← List.append_assoc, ← Nat.max_assoc]
      exact ih.snoc step

end PeakRun

/-! ## Calls -/

section Calls

variable {Call : Type w} (perform : State → Call → Label × State) (allows : State → Call → Prop)

/-- Some calls, one after the other: their labels, and the state that they lead to. -/
def performAll : State → List Call → List Label × State
  | s, [] => ([], s)
  | s, call :: calls =>
    let rest := performAll (perform s call).2 calls
    ((perform s call).1 :: rest.1, rest.2)

/-- Each of the calls is allowed in the state in which it is made. -/
def AllowsAll : State → List Call → Prop
  | _, [] => True
  | s, call :: calls => allows s call ∧ AllowsAll (perform s call).2 calls

instance decidableAllowsAll [∀ s call, Decidable (allows s call)] :
    ∀ (s : State) (calls : List Call), Decidable (AllowsAll perform allows s calls)
  | _, [] => isTrue trivial
  | s, call :: calls =>
    have := decidableAllowsAll (perform s call).2 calls
    inferInstanceAs (Decidable (allows s call ∧ AllowsAll perform allows (perform s call).2 calls))

/-- The greatest count of a state on the way of some calls. -/
def peakAll (count : State → Nat) : State → List Call → Nat
  | s, [] => count s
  | s, call :: calls => max (count s) (peakAll count (perform s call).2 calls)

theorem le_peakAll (count : State → Nat) (s : State) (calls : List Call) :
    count s ≤ peakAll perform count s calls := by
  cases calls with
  | nil => exact Nat.le_refl _
  | cons call calls => exact Nat.le_max_left _ _

variable {perform allows}

/-- **Allowed calls are a run with their peak.** -/
theorem PeakRun.of_calls {count : State → Nat}
    (steps : ∀ s call, system.Reachable s → allows s call →
      system.Next s (perform s call).1 (perform s call).2)
    {s : State} (reachable : system.Reachable s) {calls : List Call}
    (allowed : AllowsAll perform allows s calls) :
    system.PeakRun count s (performAll perform s calls).1 (performAll perform s calls).2
      (peakAll perform count s calls) := by
  induction calls generalizing s with
  | nil => exact .nil s
  | cons call calls ih =>
      have step := steps s call reachable allowed.1
      have first : system.PeakRun count s ([] ++ [(perform s call).1]) (perform s call).2
          (max (count s) (count (perform s call).2)) := (PeakRun.nil s).snoc step
      have both := first.append (ih (reachable.next step) allowed.2)
      have seen := le_peakAll perform count (perform s call).2 calls
      rwa [Nat.max_assoc, Nat.max_eq_right seen] at both

/-- **Allowed calls are a run** from a reachable state, when an allowed call is a step there. -/
theorem Reachable.run_calls
    (steps : ∀ s call, system.Reachable s → allows s call →
      system.Next s (perform s call).1 (perform s call).2)
    {s : State} (reachable : system.Reachable s) {calls : List Call}
    (allowed : AllowsAll perform allows s calls) :
    system.Run s (performAll perform s calls).1 (performAll perform s calls).2 := by
  have peaked : system.PeakRun (fun _ => 0) s (performAll perform s calls).1
      (performAll perform s calls).2 (peakAll perform (fun _ => 0) s calls) :=
    .of_calls steps reachable allowed
  exact peaked.run

end Calls

end System

end Machine
