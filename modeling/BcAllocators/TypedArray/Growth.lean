import BcAllocators.Records
import BcAllocators.TypedArray.Agreement

/-!
# What pushing costs

A push that finds the array full doubles its capacity, and an append doubles it until
it is enough; each of them then asks the pool once for a larger block, and the pool may
have to move the elements. The header promises that this is rare: the slow path is
taken `O(log N)` times over the lifetime of an array, so that pushes are `O(1)`
amortized.

To count the requests, the pool of an array keeps a log of the sizes that it has
granted to pushes and appends (`PoolApi.logged`). In a run of any calls but
`prefix##_destroy`, with the requests of a reserve not logged, each entry is at least
twice the one before. So the log has at most `log2 N + 1` entries, for the greatest
length `N` so far, and all bytes that it has ever granted are at most four times those
of `N` elements (`typed_array_growth`).
-/

set_option autoImplicit false

namespace BcAllocators

open Machine

/-! ## A log of requests -/

/-- A pool, and the sizes that it has granted, latest first. -/
structure LoggedPool (σ : Type) where
  pool : σ
  granted : List Nat

variable {σ : Type} {core : BcCore} {pool : PoolApi σ} {view : PoolView σ} {elementSize : Nat}

/-- A request is logged when it is granted. -/
def LoggedPool.note (c : LoggedPool σ) (size : Nat) (answer : σ × PtrResult) :
    LoggedPool σ × PtrResult :=
  (⟨answer.1, if answer.2.ok then size :: c.granted else c.granted⟩, answer.2)

/-- The functions of a pool, with a log. -/
def PoolApi.logged (api : PoolApi σ) : PoolApi (LoggedPool σ) where
  memory c := api.memory c.pool
  setMemory c m := { c with pool := api.setMemory c.pool m }
  allocate c size := c.note size (api.allocate c.pool size)
  reallocate c ptr size := c.note size (api.reallocate c.pool ptr size)
  free c ptr := { c with pool := api.free c.pool ptr }

/-- **A log does not change what the pool does.** -/
theorem logged_forgets (api : PoolApi σ) : api.logged.Forgets api LoggedPool.pool where
  memory _ := rfl
  setMemory _ _ := rfl
  allocate _ _ := rfl
  reallocate _ _ _ := rfl
  free _ _ := rfl

namespace ArrayState

/-- An array without the log of its pool. -/
abbrev plain (t : ArrayState (LoggedPool σ)) : ArrayState σ := t.map LoggedPool.pool

/-- An array whose pool has a log. -/
def withLog (t : ArrayState σ) (granted : List Nat) : ArrayState (LoggedPool σ) :=
  ⟨⟨t.pool, granted⟩, t.array⟩

/-- The effect of a call, with the requests of pushes and appends logged. -/
def performLogged (core : BcCore) (pool : PoolApi σ) (fuel : Nat) (t : ArrayState (LoggedPool σ))
    (call : ArrayCall elementSize) : Option (ArrayState (LoggedPool σ) × Bool) :=
  match call with
  | .push _ => t.perform core pool.logged fuel call
  | .appendBulk _ _ => t.perform core pool.logged fuel call
  | _ => (t.plain.perform core pool fuel call).map fun r => (r.1.withLog t.pool.granted, r.2)

/-- Logging is on the side. -/
theorem performLogged_plain (fuel : Nat) (t : ArrayState (LoggedPool σ))
    (call : ArrayCall elementSize) : t.plain.perform core pool fuel call =
      (t.performLogged core pool fuel call).map (Prod.map plain id) := by
  have quiet : ∀ r : Option (ArrayState σ × Bool),
      r = (r.map fun r => (r.1.withLog t.pool.granted, r.2)).map (Prod.map plain id) := by
    intro r
    cases r <;> rfl
  cases call with
  | push value => exact arrayPerform_forgets (logged_forgets pool) core t fuel _
  | appendBulk src count => exact arrayPerform_forgets (logged_forgets pool) core t fuel _
  | reserve newCap => exact quiet _
  | clear => exact quiet _
  | destroy => exact quiet _
  | neighbour call => exact quiet _

end ArrayState

/-- Correct clients of an array that is zero at the start, up to its destruction, in a
pool with a log. -/
def growthSystem (core : BcCore) (pool : PoolApi σ) (view : PoolView σ) (elementSize : Nat) :
    System (ArrayState (LoggedPool σ)) (ListEvent elementSize) where
  Start t := view.Sound t.pool.pool ∧ t.array = .empty ∧ t.pool.granted = []
  Next t event t' := view.Trusted t'.pool.pool ∧ ∃ call : ArrayCall elementSize,
    t.plain.Allows view call ∧ call ≠ .destroy ∧
      event.op = call.op (pool.memory t.pool.pool) ∧
      ∃ fuel, t.performLogged core pool fuel call = some (t', event.done)

variable {t t' u : ArrayState (LoggedPool σ)}

/-- A step with a log is a step of the array. -/
theorem growth_step_plain {event : ListEvent elementSize}
    (step : (growthSystem core pool view elementSize).Next t event t') :
    (arraySystem core pool view elementSize).Next t.plain event t'.plain := by
  obtain ⟨trusted, call, allowed, _, op, fuel, performed⟩ := step
  refine ⟨trusted, call, allowed, op, fuel, ?_⟩
  rw [ArrayState.performLogged_plain, performed]
  rfl

/-! ## Entries of the log -/

/-- The log has the size of the elements when the capacity has grown, and is the same
when the capacity is. -/
def Logs (elementSize : Nat) (t t' : ArrayState (LoggedPool σ)) : Prop :=
  t'.array.capacity = t.array.capacity ∧ t'.pool.granted = t.pool.granted ∨
    t.array.capacity < t'.array.capacity ∧
      t'.pool.granted = t'.array.capacity * elementSize :: t.pool.granted

theorem Logs.refl (elementSize : Nat) (t : ArrayState (LoggedPool σ)) : Logs elementSize t t :=
  Or.inl ⟨rfl, rfl⟩

/-- A request for the elements is logged when it is granted. -/
theorem requestData_granted (pool : PoolApi σ) (t : ArrayState (LoggedPool σ)) (size : Nat) :
    (requestData pool.logged t size).1.granted =
      if (requestData pool.logged t size).2.ok then size :: t.pool.granted
      else t.pool.granted := by
  unfold requestData
  split <;> rfl

theorem arrayReserve_logs (core : BcCore) (pool : PoolApi σ) (t : ArrayState (LoggedPool σ))
    (sizeWord : elementSize < 2 ^ 64) {newCap : Nat} (word : newCap < 2 ^ 64) :
    Logs elementSize t (arrayReserve core pool.logged elementSize t newCap).1 := by
  unfold arrayReserve
  split
  · exact Logs.refl elementSize t
  · next short =>
      rw [core.safeMultiply_eq word sizeWord]
      by_cases fits : newCap * elementSize < 2 ^ 64
      · rw [if_pos fits]
        dsimp only
        have logged := requestData_granted pool t (newCap * elementSize)
        split
        · next refused =>
            refine Or.inl ⟨rfl, ?_⟩
            rw [logged, if_neg (by rw [refused]; exact Bool.false_ne_true)]
        · next granted =>
            refine Or.inr ⟨Nat.not_le.mp short, ?_⟩
            rw [logged, if_pos (Bool.eq_true_of_not_eq_false granted)]
      · rw [if_neg fits]
        exact Logs.refl elementSize t

/-- Stores of elements are not logged. -/
theorem Logs.storeLast (logs : Logs elementSize t u) (value : Element elementSize) :
    Logs elementSize t (storeLast pool.logged elementSize u value) := logs

theorem Logs.copyElements (logs : Logs elementSize t u) (src count required : Nat) :
    Logs elementSize t (copyElements core pool.logged elementSize u src count required) := logs

theorem pushRoom_logs (core : BcCore) (pool : PoolApi σ) (t : ArrayState (LoggedPool σ))
    (sizeWord : elementSize < 2 ^ 64) :
    Logs elementSize t (pushRoom core pool.logged elementSize t).1 := by
  unfold pushRoom
  split
  · exact Logs.refl elementSize t
  · refine arrayReserve_logs core pool t sizeWord ?_
    split
    · decide
    · exact wmul_lt _ _

theorem arrayPush_logs (core : BcCore) (pool : PoolApi σ) (t : ArrayState (LoggedPool σ))
    (sizeWord : elementSize < 2 ^ 64) (value : Element elementSize) :
    Logs elementSize t (arrayPush core pool.logged elementSize t value).1 := by
  have logs := pushRoom_logs core pool t sizeWord
  rw [arrayPush_eq]
  split
  · exact logs
  · exact logs.storeLast value

theorem makeRoom_logs (sizeWord : elementSize < 2 ^ 64) (word : t.array.capacity < 2 ^ 64)
    {fuel required : Nat} {made : ArrayState (LoggedPool σ) × Bool}
    (halted : makeRoom core pool.logged elementSize fuel t required = some made) :
    Logs elementSize t made.1 := by
  by_cases enough : required ≤ t.array.capacity
  · rw [makeRoom_of_le enough] at halted
    cases halted
    exact Logs.refl elementSize t
  · rw [makeRoom_of_lt (Nat.not_le.mp enough), Option.map_eq_some_iff] at halted
    obtain ⟨newCap, doubled, rfl⟩ := halted
    exact arrayReserve_logs core pool t sizeWord
      (doubleCapacity_lt doubled (startCapacity_lt word (by decide)))

theorem arrayAppendBulk_logs (sizeWord : elementSize < 2 ^ 64) (word : t.array.capacity < 2 ^ 64)
    {fuel src count : Nat} {result : ArrayState (LoggedPool σ) × Bool}
    (returned : arrayAppendBulk core pool.logged elementSize fuel t src count = some result) :
    Logs elementSize t result.1 := by
  unfold arrayAppendBulk at returned
  split at returned
  · cases returned
    exact Logs.refl elementSize t
  dsimp only at returned
  split at returned
  · cases returned
    exact Logs.refl elementSize t
  split at returned
  · cases returned
  · next room halted =>
      have logs := makeRoom_logs sizeWord word halted
      split at returned
      · cases returned
        exact logs
      · cases returned
        exact logs.copyElements _ _ _

/-! ## Doubling -/

/-- A log in which each entry is at least twice the one before, summed up: its length
and its sum are bounded by the last capacity that was granted. -/
structure Doubled (elementSize peak capacity : Nat) (granted : List Nat) (top : Nat) : Prop where
  top_le : top ≤ capacity
  some : 0 < peak
  length : 2 ^ granted.length ≤ top
  lengthPeak : 2 ^ granted.length ≤ 2 * peak
  sum : granted.sum ≤ 2 * top * elementSize
  topPeak : top ≤ max 8 (2 * peak)

/-- The log of an array: nothing was granted, or the entries double. -/
def GrownBy (elementSize peak capacity : Nat) (granted : List Nat) : Prop :=
  granted = [] ∨ ∃ top, Doubled elementSize peak capacity granted top

variable {peak peak' capacity capacity' : Nat} {granted : List Nat}

/-- The capacity and the peak may grow otherwise. -/
theorem GrownBy.mono (grown : GrownBy elementSize peak capacity granted) (more : peak ≤ peak')
    (larger : capacity ≤ capacity') : GrownBy elementSize peak' capacity' granted := by
  refine grown.imp id ?_
  rintro ⟨top, doubled⟩
  have lengthPeak := doubled.lengthPeak
  have topPeak := doubled.topPeak
  have top_le := doubled.top_le
  have some := doubled.some
  exact ⟨top, by omega, by omega, doubled.length, by omega, doubled.sum, by omega⟩

/-- The first capacity that is enough is at least twice the old one, and less than
twice what is required. -/
theorem LeastDoubling.bounds {required newCap : Nat}
    (least : LeastDoubling capacity required newCap) (grows : capacity < newCap) :
    0 < required ∧ 2 * capacity ≤ newCap ∧ 2 ≤ newCap ∧
      (capacity = 0 → newCap ≤ max 8 (2 * required)) ∧
      (0 < capacity → newCap ≤ 2 * required) := by
  rcases least with ⟨_, rfl⟩ | ⟨short, enough, k, rfl, before⟩
  · omega
  have eight : capacity = 0 → startCapacity capacity = 8 := fun nothing => if_pos nothing
  have same : 0 < capacity → startCapacity capacity = capacity :=
    fun some => if_neg (Nat.pos_iff_ne_zero.mp some)
  cases k with
  | zero =>
      -- only the first capacity is enough without a doubling
      rw [Nat.pow_zero, Nat.mul_one] at *
      by_cases nothing : capacity = 0
      · rw [eight nothing]
        omega
      · rw [same (by omega)] at grows
        omega
  | succ k =>
      have last := before k (Nat.lt_succ_self k)
      have twice : startCapacity capacity * 2 ^ (k + 1) = 2 * (startCapacity capacity * 2 ^ k) := by
        rw [Nat.pow_succ]
        ring
      have least : startCapacity capacity ≤ startCapacity capacity * 2 ^ k :=
        Nat.le_mul_of_pos_right _ (Nat.two_pow_pos k)
      have pos := startCapacity_pos capacity
      rw [twice]
      by_cases nothing : capacity = 0
      · omega
      · rw [same (by omega)] at *
        omega

/-- **A grant doubles the last entry at least.** -/
theorem GrownBy.grow {required newCap : Nat} (grown : GrownBy elementSize peak capacity granted)
    (least : LeastDoubling capacity required newCap) (grows : capacity < newCap)
    (reached : required ≤ peak') :
    GrownBy elementSize peak' newCap (newCap * elementSize :: granted) := by
  obtain ⟨some, double, two, fromNothing, fromSome⟩ := least.bounds grows
  refine Or.inr ⟨newCap, Nat.le_refl _, by omega, ?_, ?_, ?_, ?_⟩
  all_goals rcases grown with rfl | ⟨top, doubled⟩
  · simpa using two
  · rw [List.length_cons, Nat.pow_succ]
    have length := doubled.length
    have top_le := doubled.top_le
    omega
  · rw [List.length_singleton]
    omega
  · rw [List.length_cons, Nat.pow_succ]
    have length := doubled.length
    have top_le := doubled.top_le
    have pos := Nat.two_pow_pos granted.length
    omega
  · rw [List.sum_singleton, Nat.mul_assoc]
    omega
  · rw [List.sum_cons]
    have sum := doubled.sum
    have within : 2 * top * elementSize ≤ newCap * elementSize := by
      refine Nat.mul_le_mul_right elementSize ?_
      have top_le := doubled.top_le
      omega
    have twice : 2 * newCap * elementSize = newCap * elementSize + newCap * elementSize := by ring
    omega
  · omega
  · omega

/-! ## Every run -/

/-- The invariant of a run: the array is sound, and its log doubles. -/
structure GrowthInv (view : PoolView σ) (elementSize peak : Nat)
    (t : ArrayState (LoggedPool σ)) : Prop where
  inv : ArrayInv view elementSize t.plain
  grown : GrownBy elementSize peak t.array.capacity t.pool.granted

/-- A call whose requests are logged keeps the log doubling, when the capacity that it
leaves is the first that is enough for the elements then. -/
theorem GrowthInv.logs (growth : GrowthInv view elementSize peak t)
    (inv : ArrayInv view elementSize t'.plain) (logs : Logs elementSize t t')
    (least : t.array.capacity < t'.array.capacity →
      LeastDoubling t.array.capacity t'.array.length t'.array.capacity) :
    GrowthInv view elementSize (max peak t'.array.length) t' := by
  refine ⟨inv, ?_⟩
  rcases logs with ⟨capacity, granted⟩ | ⟨grows, granted⟩
  · rw [capacity, granted]
    exact growth.grown.mono (Nat.le_max_left _ _) (Nat.le_refl _)
  · rw [granted]
    exact growth.grown.grow (least grows) grows (Nat.le_max_right _ _)

/-- A call whose requests are not logged keeps the log, when the capacity does not
shrink. -/
theorem GrowthInv.quiet (growth : GrowthInv view elementSize peak t)
    (inv : ArrayInv view elementSize t'.plain) (granted : t'.pool.granted = t.pool.granted)
    (larger : t.array.capacity ≤ t'.array.capacity) :
    GrowthInv view elementSize (max peak t'.array.length) t' := by
  refine ⟨inv, ?_⟩
  rw [granted]
  exact growth.grown.mono (Nat.le_max_left _ _) larger

/-- A reserve does not shrink the capacity. -/
theorem arrayReserve_larger (core : BcCore) (pool : PoolApi σ) (elementSize newCap : Nat)
    (t : ArrayState σ) :
    t.array.capacity ≤ (arrayReserve core pool elementSize t newCap).1.array.capacity := by
  unfold arrayReserve
  split
  · exact Nat.le_refl _
  · next short =>
      split
      · exact Nat.le_refl _
      · dsimp only
        split
        · exact Nat.le_refl _
        · exact (Nat.not_le.mp short).le

section Runs

variable (contract : PoolContract pool view) (pos : 0 < elementSize)
  (sizeWord : elementSize < 2 ^ 64)

include contract pos sizeWord

/-- **Each step keeps the log doubling.** -/
theorem GrowthInv.step (growth : GrowthInv view elementSize peak t)
    {event : ListEvent elementSize}
    (step : (growthSystem core pool view elementSize).Next t event t') :
    GrowthInv view elementSize (max peak t'.array.length) t' := by
  have refines := growth.inv.step contract pos sizeWord (growth_step_plain step)
  have inv := refines.inv
  have small := growth.inv.capacity_lt contract pos
  -- the elements say how long the array is
  have length : t'.array.length =
      (event.apply (arrayElements pool elementSize t.plain)).length := by
    rw [← refines.elements, arrayElements_length]
  have same : event.done = false → t'.array.capacity = t.array.capacity := fun no =>
    congrArg TypedArray.capacity (refines.refused no).array
  obtain ⟨op, done⟩ := event
  obtain ⟨trusted, call, allowed, lives, rfl, fuel, performed⟩ := step
  have plain : t.plain.perform core pool fuel call = some (t'.plain, done) := by
    rw [ArrayState.performLogged_plain, performed]
    rfl
  cases call with
  | push value =>
      have result : arrayPush core pool.logged elementSize t value = (t', done) :=
        Option.some.inj performed
      have logs := arrayPush_logs core pool t sizeWord value
      rw [result] at logs
      refine growth.logs inv logs fun grows => ?_
      cases done with
      | false => exact absurd (same rfl) (Nat.ne_of_gt grows)
      | true =>
          have result' : arrayPush core pool elementSize t.plain value = (t'.plain, true) :=
            Option.some.inj plain
          have granted : (arrayPush core pool elementSize t.plain value).2 = true := by rw [result']
          have capacity := growth.inv.push_capacity contract pos granted
          rw [result'] at capacity
          have now : t'.array.length = t.array.length + 1 := by
            rw [length, ListEvent.apply, if_pos rfl, ArrayCall.op, ListOp.apply, List.length_append,
              arrayElements_length, List.length_singleton]
          rw [now, show t'.array.capacity = _ from capacity]
          exact LeastDoubling.next (Or.inl ⟨growth.inv.length_le, rfl⟩) growth.inv.length_le
  | appendBulk src count =>
      have logs := arrayAppendBulk_logs sizeWord (by exact lt_trans small (by decide)) performed
      refine growth.logs inv logs fun grows => ?_
      cases done with
      | false => exact absurd (same rfl) (Nat.ne_of_gt grows)
      | true =>
          have least := growth.inv.append_capacity contract pos sizeWord allowed.1 plain trusted rfl
          have now : t'.array.length = t.array.length + count := by
            rw [length, ListEvent.apply, if_pos rfl, ArrayCall.op, ListOp.apply,
              List.length_append, arrayElements_length, loadElements_length]
          rw [now]
          exact least
  | reserve newCap =>
      have result : arrayReserve core pool elementSize t.plain newCap = (t'.plain, done) :=
        Option.some.inj plain
      have larger := arrayReserve_larger core pool elementSize newCap t.plain
      rw [result] at larger
      cases performed
      exact growth.quiet inv rfl larger
  | clear =>
      cases performed
      exact growth.quiet inv rfl (Nat.le_refl _)
  | destroy => exact absurd rfl lives
  | neighbour call =>
      cases performed
      exact growth.quiet inv rfl (Nat.le_refl _)

/-- **What pushing costs.** In a run of an array from zero, of any calls but its
destruction, whichever requests fail and whatever other clients do: the pushes and
appends have been granted at most `log2 N + 1` requests, where `N` is the greatest
length so far, and all bytes that these requests have ever asked for are at most four
times those of `N` elements, or of four. Leaving out the log, it is a run of the array. -/
theorem typed_array_growth {s : ArrayState (LoggedPool σ)}
    {events : List (ListEvent elementSize)}
    (start : (growthSystem core pool view elementSize).Start s)
    (peaked : (growthSystem core pool view elementSize).PeakRun (fun t => t.array.length)
      s events t peak) :
    t.pool.granted.length ≤ Nat.log2 peak + 1 ∧
      t.pool.granted.sum ≤ 4 * max 4 peak * elementSize ∧
      (arraySystem core pool view elementSize).Run s.plain events t.plain := by
  have initial : GrowthInv view elementSize s.array.length s := by
    obtain ⟨sound, empty, nothing⟩ := start
    refine ⟨?_, Or.inl nothing⟩
    obtain ⟨s, array⟩ := s
    obtain rfl : array = .empty := empty
    exact .empty sound
  have growth : GrowthInv view elementSize peak t :=
    peaked.invariant (fun growth step => growth.step contract pos sizeWord step) initial
  have plainRun : (arraySystem core pool view elementSize).Run s.plain events t.plain := by
    have steps : ∀ {t t' : ArrayState (LoggedPool σ)} {event : ListEvent elementSize}
        {u : ArrayState σ}, t.plain = u →
        (growthSystem core pool view elementSize).Next t event t' →
        ∃ u', (arraySystem core pool view elementSize).Next u event u' ∧ t'.plain = u' := by
      rintro t t' event _ rfl step
      exact ⟨_, growth_step_plain step, rfl⟩
    obtain ⟨_, run, rfl⟩ := peaked.run.simulate (arraySystem core pool view elementSize)
      (fun t u => t.plain = u) steps rfl
    exact run
  refine ⟨?_, ?_, plainRun⟩
  all_goals rcases growth.grown with nothing | ⟨top, doubled⟩
  · rw [nothing]
    exact Nat.zero_le _
  · have length := doubled.lengthPeak
    have log : peak < 2 ^ (Nat.log2 peak + 1) := Nat.lt_log2_self
    have pow : 2 ^ t.pool.granted.length < 2 ^ (Nat.log2 peak + 2) := by
      rw [Nat.pow_succ _ (Nat.log2 peak + 1)]
      omega
    have below := (Nat.pow_lt_pow_iff_right (by decide)).mp pow
    omega
  · rw [nothing]
    exact Nat.zero_le _
  · refine doubled.sum.trans (Nat.mul_le_mul_right elementSize ?_)
    have topPeak := doubled.topPeak
    omega

end Runs

/-! ## A small array -/

/-- The empty array whose first allocation fails, with a log. -/
def emptyLogged : ArrayState (LoggedPool (FaultyPool ClientPool)) := emptyArray.withLog []

/-- The array after a push that is refused. -/
def refusedLogged : ArrayState (LoggedPool (FaultyPool ClientPool)) :=
  (arrayPush BcCore.reference (faultyPool BcCore.reference).logged 8 emptyLogged sevens).1

/-- The array after a second push. -/
def pushedLogged : ArrayState (LoggedPool (FaultyPool ClientPool)) :=
  (arrayPush BcCore.reference (faultyPool BcCore.reference).logged 8 refusedLogged sevens).1

/-- The system of these arrays. -/
abbrev smallLogged : System (ArrayState (LoggedPool (FaultyPool ClientPool))) (ListEvent 8) :=
  growthSystem BcCore.reference (faultyPool BcCore.reference)
    (faultyView BcCore.reference Platform.x86 sixteenPages) 8

theorem pushedLogged_peaked : smallLogged.PeakRun (fun t => t.array.length) emptyLogged
    [⟨.push sevens, false⟩, ⟨.push sevens, true⟩] pushedLogged 1 := by
  have lives : ArrayCall.push sevens ≠ ArrayCall.destroy := by simp
  have first : smallLogged.Next emptyLogged ⟨.push sevens, false⟩ refusedLogged := by
    refine ⟨?_, .push sevens, trivial, lives, rfl, 0, ?_⟩
    · exact show refusedLogged.pool.pool.pool.faithful = true by decide +kernel
    · exact congrArg some (Prod.ext rfl (by decide +kernel))
  have second : smallLogged.Next refusedLogged ⟨.push sevens, true⟩ pushedLogged := by
    refine ⟨?_, .push sevens, trivial, lives, rfl, 0, ?_⟩
    · exact show pushedLogged.pool.pool.pool.faithful = true by decide +kernel
    · exact congrArg some (Prod.ext rfl (by decide +kernel))
  have lengths : refusedLogged.array.length = 0 ∧ pushedLogged.array.length = 1 := by
    decide +kernel
  have none : smallLogged.PeakRun (fun t => t.array.length) emptyLogged [] emptyLogged 0 :=
    .nil emptyLogged
  have both := (none.snoc first).snoc second
  rwa [lengths.1, lengths.2] at both

theorem typed_array_growth_pushedLogged :
    pushedLogged.pool.granted.length ≤ Nat.log2 1 + 1 ∧
      pushedLogged.pool.granted.sum ≤ 4 * max 4 1 * 8 ∧
      smallArrays.Run emptyLogged.plain [⟨.push sevens, false⟩, ⟨.push sevens, true⟩]
        pushedLogged.plain :=
  typed_array_growth (faulty_contract _ _ _) (by decide) (by decide)
    ⟨ClientSound.start sixteenPages_start, rfl, rfl⟩ pushedLogged_peaked

end BcAllocators
