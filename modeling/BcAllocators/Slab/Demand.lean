import BcAllocators.Slab.Client

/-!
# Demand for slots

A slab adds a page only when it finds every slot live, and it never gives a page
back. The live objects are then one more than all the slots that there were, so the
number of pages is always the least that holds the greatest number of objects that
were live at once, and at least the one of its creation (`slab_pages_peak`). A slab
whose objects come and go below that peak takes nothing more from the pool.
-/

set_option autoImplicit false

namespace BcAllocators

open Machine

variable {σ : Type} {pool : PoolApi σ} {view : PoolView σ} {v : SlabView}
variable {others : List Grant} {objectSize objectsPerSlab : Nat} {t t' : SlabRun σ}

/-- The live objects of a slab. -/
def SlabRun.demand (t : SlabRun σ) : Nat := t.live.length

/-- The blocks of a slab are its header and two for each page. -/
theorem SlabView.grants_length (v : SlabView) : v.grants.length = 2 * v.pages.length + 1 := by
  unfold SlabView.grants
  rw [List.length_cons, List.length_flatMap]
  simp [SlabPage.grants, Nat.mul_comm]

/-- An allocation that takes blocks from the pool hands out an object. -/
theorem SlabRun.Shows.allocate_ok (contract : PoolContract pool view)
    (shows : t.Shows pool view objectSize objectsPerSlab v others)
    (trusted : view.Trusted (slabAllocate pool t.pool t.slab).1)
    (taken : view.grants (slabAllocate pool t.pool t.slab).1 ≠ view.grants t.pool) :
    (slabAllocate pool t.pool t.slab).2.ok = true := by
  rw [← shows.address] at trusted taken ⊢
  cases slabAllocate_spec contract shows.inv trusted with
  | refused _ _ nothing => exact absurd nothing.grants taken
  | reused result _ _ => rw [result]
  | added _ result _ _ => rw [result]

/-- **A page is added for an object that no slot is left for.** -/
theorem SlabRun.Shows.grows (contract : PoolContract pool view) {event : SlabEvent}
    (shows : t.Shows pool view objectSize objectsPerSlab v others)
    (step : (slabSystem pool view objectSize objectsPerSlab).Next t event t')
    {v' : SlabView} {others' : List Grant} {p : SlabPage}
    (shows' : t'.Shows pool view objectSize objectsPerSlab v' others')
    (call : event.call = .allocate) (full : v.free = []) (pages : v'.pages = p :: v.pages) :
    t'.demand = v.pages.length * objectsPerSlab + 1 := by
  obtain ⟨_, result⟩ := event
  obtain rfl : _ = SlabCall.allocate := call
  obtain ⟨trusted, _, performed⟩ := step
  obtain rfl : (t.perform pool view .allocate).1 = t' := congrArg Prod.fst performed
  -- the blocks of the page are new
  have before := shows.taken.length_eq
  have after := shows'.taken.length_eq
  rw [SlabView.grants_length] at before after
  rw [pages, List.length_cons] at after
  have taken : view.grants (slabAllocate pool t.pool t.slab).1 ≠ view.grants t.pool := by
    intro same
    unfold SlabRun.perform at after
    dsimp only at after
    rw [newGrants_same same, List.nil_append] at after
    omega
  have ok := shows.allocate_ok contract trusted taken
  have live : (t.perform pool view .allocate).1.live.length = t.live.length + 1 := by
    unfold SlabRun.perform
    dsimp only
    rw [if_pos ok, List.length_cons]
  have slots := shows.inv.layout.length_add
  rw [full, List.length_nil, Nat.zero_add, shows.live.length_eq, shows.objectsPerSlab] at slots
  unfold SlabRun.demand
  rw [live, slots]

/-- The live objects have slots. -/
theorem SlabRun.Shows.demand_le (shows : t.Shows pool view objectSize objectsPerSlab v others) :
    t.demand ≤ v.pages.length * objectsPerSlab := by
  have slots := shows.inv.layout.length_add
  rw [shows.live.length_eq, shows.objectsPerSlab] at slots
  unfold SlabRun.demand
  omega

/-- A slab whose pages hold the peak, and were needed for it. -/
def HoldsObjects (pool : PoolApi σ) (view : PoolView σ) (objectSize objectsPerSlab peak : Nat)
    (t : SlabRun σ) : Prop :=
  ∃ v others, t.Shows pool view objectSize objectsPerSlab v others ∧
    peak ≤ v.pages.length * objectsPerSlab ∧
    (v.pages.length = 1 ∨ (v.pages.length - 1) * objectsPerSlab < peak)

/-- **Each step keeps the pages to the peak.** -/
theorem HoldsObjects.step (contract : PoolContract pool view) {peak : Nat} {event : SlabEvent}
    (holds : HoldsObjects pool view objectSize objectsPerSlab peak t)
    (step : (slabSystem pool view objectSize objectsPerSlab).Next t event t') :
    HoldsObjects pool view objectSize objectsPerSlab (max peak t'.demand) t' := by
  obtain ⟨v, others, shows, enough, needed⟩ := holds
  obtain ⟨v', others', shows', pages⟩ := shows.step contract step
  have within := shows'.demand_le
  rcases pages with same | ⟨call, full, p, more⟩
  · refine ⟨v', others', shows', max_le (same ▸ enough) within, ?_⟩
    rw [same]
    exact needed.imp id fun below => lt_of_lt_of_le below (le_max_left _ _)
  · have grown := shows.grows contract step shows' call full more
    have length : v'.pages.length = v.pages.length + 1 := by
      rw [more, List.length_cons]
    refine ⟨v', others', shows', max_le (enough.trans ?_) within, Or.inr ?_⟩
    · rw [length]
      exact Nat.mul_le_mul_right objectsPerSlab (Nat.le_succ _)
    · rw [length, Nat.add_sub_cancel]
      exact lt_of_lt_of_le (by omega) (le_max_right _ _)

theorem HoldsObjects.start (contract : PoolContract pool view)
    (fits : objectsPerSlab * objectSize < 2 ^ 64)
    (start : (slabSystem pool view objectSize objectsPerSlab).Start t) :
    HoldsObjects pool view objectSize objectsPerSlab t.demand t := by
  obtain ⟨v, others, shows, one⟩ := SlabRun.Shows.created contract fits start
  exact ⟨v, others, shows, shows.demand_le, Or.inl one⟩

/-- **The pages are the least that hold the peak**, and one at least. -/
theorem HoldsObjects.pages (some : 0 < objectsPerSlab) {peak : Nat}
    (holds : HoldsObjects pool view objectSize objectsPerSlab peak t) :
    slabCount (pool.memory t.pool) t.slab = max 1 (peak ⌈/⌉ objectsPerSlab) ∧
      t.taken.length = 2 * slabCount (pool.memory t.pool) t.slab + 1 := by
  obtain ⟨v, others, shows, enough, needed⟩ := holds
  have count := shows.inv.shape.slabCount
  rw [shows.address] at count
  have upper : peak ⌈/⌉ objectsPerSlab ≤ v.pages.length := by
    rw [ceilDiv_le_iff_le_mul some, Nat.mul_comm]
    exact enough
  have lower : v.pages.length = 1 ∨ v.pages.length - 1 < peak ⌈/⌉ objectsPerSlab := by
    refine needed.imp id fun below => ?_
    by_contra fewer
    have short := (ceilDiv_le_iff_le_mul some).mp (Nat.not_lt.mp fewer)
    rw [Nat.mul_comm] at short
    omega
  have least : v.pages.length = max 1 (peak ⌈/⌉ objectsPerSlab) := by
    have front := List.length_pos_of_ne_nil shows.some
    omega
  refine ⟨count.trans least, ?_⟩
  rw [← shows.taken.length_eq, SlabView.grants_length, count]

/-- **The pages of a slab are those of its peak demand.** In every run of correct
clients, with pool calls that fail and other clients in between, a slab of `n` objects a
page has the pages that the greatest number of objects live at once needs, and at least
one; all that it holds of the pool are its header and two blocks for each page; and
while its demand stays below that peak, it takes nothing more. -/
theorem slab_pages_peak (contract : PoolContract pool view) (some : 0 < objectsPerSlab)
    (fits : objectsPerSlab * objectSize < 2 ^ 64) {s t : SlabRun σ} {events : List SlabEvent}
    {peak : Nat} (start : (slabSystem pool view objectSize objectsPerSlab).Start s)
    (run : (slabSystem pool view objectSize objectsPerSlab).PeakRun SlabRun.demand s events t
      peak) :
    slabCount (pool.memory t.pool) t.slab = max 1 (peak ⌈/⌉ objectsPerSlab) ∧
      t.taken.length = 2 * slabCount (pool.memory t.pool) t.slab + 1 ∧
      ∀ events' t' peak', (slabSystem pool view objectSize objectsPerSlab).PeakRun
          SlabRun.demand t events' t' peak' →
        peak' ≤ peak → t'.taken.length = t.taken.length := by
  have counts : ∀ {events t peak}, (slabSystem pool view objectSize objectsPerSlab).PeakRun
      SlabRun.demand s events t peak →
      slabCount (pool.memory t.pool) t.slab = max 1 (peak ⌈/⌉ objectsPerSlab) ∧
        t.taken.length = 2 * slabCount (pool.memory t.pool) t.slab + 1 := fun run =>
    HoldsObjects.pages some
      (run.invariant (fun holds step => holds.step contract step) (.start contract fits start))
  obtain ⟨count, taken⟩ := counts run
  refine ⟨count, taken, fun events' t' peak' further below => ?_⟩
  have longer := counts (run.append further)
  rw [Nat.max_eq_left below] at longer
  rw [longer.2, taken, longer.1, count]

/-! ## A slab of two pages -/

namespace SlabRun

/-- A call of the user of the small slab, which frees live objects only, and after which
the pool is as it should be. -/
def OwnCall (t : SlabRun ClientPool) (call : SlabCall) : Prop :=
  (call = .allocate ∨ ∃ ptr ∈ t.live, call = .free ptr) ∧
    (t.perform (clientApi BcCore.reference) smallView call).1.pool.faithful = true

instance (t : SlabRun ClientPool) : DecidablePred t.OwnCall :=
  fun _ => inferInstanceAs (Decidable (_ ∧ _))

/-- The call as an event, and what it leads to. -/
def ownEvent (t : SlabRun ClientPool) (call : SlabCall) : SlabEvent × SlabRun ClientPool :=
  (⟨call, (t.perform (clientApi BcCore.reference) smallView call).2⟩,
    (t.perform (clientApi BcCore.reference) smallView call).1)

theorem ownEvent_next (t : SlabRun ClientPool) (call : SlabCall) (own : t.OwnCall call) :
    (slabSystem (clientApi BcCore.reference) smallView 1024 2).Next t (t.ownEvent call).1
      (t.ownEvent call).2 := by
  obtain ⟨asked, trusted⟩ := own
  refine next_perform call rfl trusted ?_
  rcases asked with rfl | ⟨ptr, live, rfl⟩
  · trivial
  · exact live

end SlabRun

/-- Three objects are allocated, and the first of them is freed. -/
def threeObjectCalls : List SlabCall := [.allocate, .allocate, .allocate, .free 74752]

/-- The small slab after these calls. -/
def twoOfThree : SlabRun ClientPool :=
  (System.performAll SlabRun.ownEvent twoObjects threeObjectCalls).2

/-- The slab has taken two pages for three objects, and keeps them when one is freed. -/
theorem slab_pages_peak_twoOfThree :
    (slabCount ((clientApi BcCore.reference).memory twoOfThree.pool) twoOfThree.slab =
        max 1 (3 ⌈/⌉ 2) ∧
      twoOfThree.taken.length =
        2 * slabCount ((clientApi BcCore.reference).memory twoOfThree.pool) twoOfThree.slab + 1 ∧
      ∀ events' t' peak', (slabSystem (clientApi BcCore.reference) smallView 1024 2).PeakRun
          SlabRun.demand twoOfThree events' t' peak' →
        peak' ≤ 3 → t'.taken.length = twoOfThree.taken.length) ∧
    twoOfThree.live = [76800, 73728] := by
  have start : (slabSystem (clientApi BcCore.reference) smallView 1024 2).Start twoObjects :=
    SlabRun.start_created (ClientSound.start sixteenPages_start) 8192
      (show (slabCreate (clientApi BcCore.reference) ⟨sixteenPages, true⟩ 8192 1024 2).1.faithful =
        true by decide +kernel) (by decide +kernel)
  have own : System.AllowsAll SlabRun.ownEvent SlabRun.OwnCall twoObjects threeObjectCalls := by
    decide +kernel
  have peak : System.peakAll SlabRun.ownEvent SlabRun.demand twoObjects threeObjectCalls = 3 := by
    decide +kernel
  have run : (slabSystem (clientApi BcCore.reference) smallView 1024 2).PeakRun SlabRun.demand
      twoObjects (System.performAll SlabRun.ownEvent twoObjects threeObjectCalls).1 twoOfThree
      (System.peakAll SlabRun.ownEvent SlabRun.demand twoObjects threeObjectCalls) :=
    .of_calls (fun t call _ own => t.ownEvent_next call own) (.start start) own
  rw [peak] at run
  exact ⟨slab_pages_peak (pool_contract _ _ _ _) (by decide) (by decide) start run,
    by decide +kernel⟩

end BcAllocators
