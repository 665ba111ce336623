import BcAllocators.Lib.Transitions

/-!
# Parties that divide what a state holds

Any finite number of parties take turns on a shared state, and each has a state of its
own beside it. What the shared state holds is divided among them: each party stands on
some of the resources, and on no others (`Tenure.Divided`). A turn that exchanges the
resources of one party and leaves those of the others alone keeps the division, and the
others have what they had (`Divided.turn`).

So a party is proved against its own turns only. When each of its turns is, on the value
of what it has, a turn of an abstract party, then a run of all of them is a run of
abstract parties that share nothing (`Tenure.Follows.run`).
-/

set_option autoImplicit false

namespace Machine

universe u v w x y z

variable {State : Type u} {Resource : Type v} {Local : Type w} {Value : Type x} {Label : Type y}
variable {ι : Type z}

/-! ## Systems of parties -/

/-- Parties with a shared state, each with a state of its own. -/
def parties (ι : Type z) (start : State → Prop) (vacant : Local)
    (turn : State → Local → Label → State → Local → Prop) :
    System (State × (ι → Local)) (ι × Label) where
  Start p := start p.1 ∧ ∀ i, p.2 i = vacant
  Next p label q := turn p.1 (p.2 label.1) label.2 q.1 (q.2 label.1) ∧
    ∀ j, j ≠ label.1 → q.2 j = p.2 j

/-- Parties that share nothing. -/
def alone (ι : Type z) (vacant : Value) (turn : Value → Label → Value → Prop) :
    System (ι → Value) (ι × Label) where
  Start a := ∀ i, a i = vacant
  Next a label b := turn (a label.1) label.2 (b label.1) ∧ ∀ j, j ≠ label.1 → b j = a j

/-! ## Division -/

/-- How the state of a party stands on resources, and what it is worth. Both stay as they
are as long as the resources do. -/
structure Tenure (State : Type u) (Resource : Type v) (Local : Type w) (Value : Type x) where
  Sound : State → Prop
  held : State → Multiset Resource
  Stands : State → Local → Multiset Resource → Prop
  value : State → Local → Value
  Kept : Multiset Resource → State → State → Prop
  kept_mono : ∀ {fewer more : Multiset Resource} {s s' : State}, fewer ≤ more →
    Kept more s s' → Kept fewer s s'
  stays : ∀ {own : Multiset Resource} {s s' : State} {x : Local}, Sound s → Sound s' →
    own ≤ held s → own ≤ held s' → Stands s x own → Kept own s s' →
      Stands s' x own ∧ value s' x = value s x

namespace Tenure

variable (tenure : Tenure State Resource Local Value)

/-- What the state holds is divided among the parties. -/
structure Divided [Fintype ι] (s : State) (locals : ι → Local) (own : ι → Multiset Resource) :
    Prop where
  sound : tenure.Sound s
  held : tenure.held s = ∑ i, own i
  stands : ∀ i, tenure.Stands s (locals i) (own i)

/-- One party has new resources, and those of the others are left alone. -/
structure Exchange (s s' : State) (own' others : Multiset Resource) : Prop where
  sound : tenure.Sound s'
  held : tenure.held s' = own' + others
  kept : tenure.Kept others s s'

/-- Each turn of a party exchanges its own resources, and is a turn on the value of what
it has. -/
def Follows (turn : State → Local → Label → State → Local → Prop)
    (abstract : Value → Label → Value → Prop) : Prop :=
  ∀ {s s' : State} {x x' : Local} {label : Label} {own others : Multiset Resource},
    tenure.Sound s → tenure.held s = own + others → tenure.Stands s x own →
    turn s x label s' x' →
      ∃ own', tenure.Exchange s s' own' others ∧ tenure.Stands s' x' own' ∧
        abstract (tenure.value s x) label (tenure.value s' x')

variable {tenure} [Fintype ι] [DecidableEq ι] {s s' : State} {locals locals' : ι → Local}
  {own : ι → Multiset Resource}

/-- The resources of one party, and those of the others. -/
theorem Divided.split (divided : tenure.Divided s locals own) (i : ι) :
    tenure.held s = own i + ∑ j ∈ Finset.univ.erase i, own j := by
  rw [divided.held, Finset.add_sum_erase Finset.univ own (Finset.mem_univ i)]

/-- The resources of another party are among those left alone. -/
theorem le_others (own : ι → Multiset Resource) {i j : ι} (other : j ≠ i) :
    own j ≤ ∑ k ∈ Finset.univ.erase i, own k :=
  Finset.single_le_sum (fun _ _ => Multiset.zero_le _)
    (Finset.mem_erase.mpr ⟨other, Finset.mem_univ j⟩)

/-- **An exchange of one party keeps the division**, and the others have what they had. -/
theorem Divided.turn (divided : tenure.Divided s locals own) (i : ι) {own' : Multiset Resource}
    (exchange : tenure.Exchange s s' own' (∑ j ∈ Finset.univ.erase i, own j))
    (stands : tenure.Stands s' (locals' i) own') (same : ∀ j, j ≠ i → locals' j = locals j) :
    tenure.Divided s' locals' (Function.update own i own') ∧
      ∀ j, j ≠ i → tenure.value s' (locals' j) = tenure.value s (locals j) := by
  have total : tenure.held s' = ∑ j, Function.update own i own' j := by
    rw [exchange.held, Finset.sum_update_of_mem (Finset.mem_univ i), Finset.sdiff_singleton_eq_erase]
  have others : ∀ j, j ≠ i → tenure.Stands s' (locals j) (own j) ∧
      tenure.value s' (locals j) = tenure.value s (locals j) := by
    intro j other
    have among := le_others own other
    refine tenure.stays divided.sound exchange.sound ?_ ?_ (divided.stands j)
      (tenure.kept_mono among exchange.kept)
    · rw [divided.split i]
      exact among.trans (Multiset.le_add_left _ _)
    · rw [exchange.held]
      exact among.trans (Multiset.le_add_left _ _)
  refine ⟨⟨exchange.sound, total, fun j => ?_⟩, fun j other => ?_⟩
  · by_cases here : j = i
    · rw [here, Function.update_self]
      exact stands
    · rw [same j here, Function.update_of_ne here]
      exact (others j here).1
  · rw [same j other]
    exact (others j other).2

variable {start : State → Prop} {vacant : Local}
  {turn : State → Local → Label → State → Local → Prop} {nothing : Value}
  {abstract : Value → Label → Value → Prop}

/-- A step of the parties is a step of parties that share nothing. -/
theorem Follows.step (follows : tenure.Follows turn abstract)
    (divided : tenure.Divided s locals own) {label : ι × Label}
    (step : (parties ι start vacant turn).Next (s, locals) label (s', locals')) :
    (∃ own', tenure.Divided s' locals' own') ∧
      (alone ι nothing abstract).Next (fun i => tenure.value s (locals i)) label
        (fun i => tenure.value s' (locals' i)) := by
  obtain ⟨i, label⟩ := label
  obtain ⟨turned, same⟩ := step
  obtain ⟨own', exchange, stands, made⟩ :=
    follows divided.sound (divided.split i) (divided.stands i) turned
  obtain ⟨divided', others⟩ := divided.turn i exchange stands same
  exact ⟨⟨_, divided'⟩, made, others⟩

/-- **A run of the parties is a run of parties that share nothing**, and what the state
holds is divided among them at its end. -/
theorem Follows.run (follows : tenure.Follows turn abstract) {p q : State × (ι → Local)}
    {labels : List (ι × Label)} (run : (parties ι start vacant turn).Run p labels q)
    (divided : tenure.Divided p.1 p.2 own) :
    (∃ own', tenure.Divided q.1 q.2 own') ∧
      (alone ι nothing abstract).Run (fun i => tenure.value p.1 (p.2 i)) labels
        (fun i => tenure.value q.1 (q.2 i)) := by
  obtain ⟨_, made, divided', rfl⟩ := run.simulate (alone ι nothing abstract)
    (fun p a => (∃ own, tenure.Divided p.1 p.2 own) ∧ a = fun i => tenure.value p.1 (p.2 i))
    (by
      rintro t t' label _ ⟨⟨_, here⟩, rfl⟩ step
      obtain ⟨there, next⟩ := follows.step here step
      exact ⟨_, next, there, rfl⟩)
    ⟨⟨own, divided⟩, rfl⟩
  exact ⟨divided', made⟩

end Tenure

end Machine
