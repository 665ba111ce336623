import BcAllocators.Pool.Accounting

/-!
# The books of the pool

The counters of a context with tracking wrap after `2 ^ 64` calls, and so they
agree with the live blocks up to multiples of `2 ^ 64` only. That much is an
invariant with no bound on the run: the difference between what the counters say
and what the live blocks amount to is never changed by a call (`PoolState.books`).
Two states with the same live blocks and the same books report the same difference
of counts and the same active bytes (`PoolState.figures_eq`). A context without
tracking has no books and reports nothing.
-/

set_option autoImplicit false

namespace BcAllocators

open Machine

variable {core : BcCore} {platform : Platform} {w' : World} {s s' : PoolState}
variable {tally : Tally} {bytes old new : Nat}

/-- A difference of counts and a number of bytes. -/
abbrev Balance := Residue × Residue

namespace Tally

/-- What the counters say. -/
def balance (tally : Tally) : Balance :=
  ((tally.allocCount : Residue) - tally.freeCount, (tally.activeBytes : Residue))

theorem balance_alloc (bytes : Nat) (tally : Tally) :
    (tally.alloc bytes).balance = tally.balance + (1, (bytes : Residue)) := by
  unfold alloc balance
  ext
  · simp only [wadd_residue, Prod.fst_add, Nat.cast_one]
    ring
  · simp only [wadd_residue, Prod.snd_add]

theorem balance_free (word : bytes ≤ 2 ^ 64) (tally : Tally) :
    (tally.free bytes).balance = tally.balance - (1, (bytes : Residue)) := by
  unfold free balance
  ext
  · simp only [wadd_residue, Prod.fst_sub, Nat.cast_one]
    ring
  · simp only [wsub_residue word, Prod.snd_sub]

theorem balance_resize (word : old ≤ 2 ^ 64) (new : Nat) (tally : Tally) :
    (tally.resize old new).balance =
      tally.balance + (1, (new : Residue)) - (1, (old : Residue)) := by
  unfold resize balance
  ext
  · simp only [Prod.fst_add, Prod.fst_sub]
    ring
  · simp only [wadd_residue, wsub_residue word, Prod.snd_add, Prod.snd_sub]
    ring

/-- The counters are words. -/
def Words (tally : Tally) : Prop :=
  tally.allocCount < 2 ^ 64 ∧ tally.freeCount < 2 ^ 64 ∧ tally.activeBytes < 2 ^ 64

theorem Words.alloc (words : tally.Words) (bytes : Nat) : (tally.alloc bytes).Words :=
  ⟨wadd_lt _ _, words.2.1, wadd_lt _ _⟩

theorem Words.free (words : tally.Words) (bytes : Nat) : (tally.free bytes).Words :=
  ⟨words.1, wadd_lt _ _, wsub_lt _ _⟩

theorem Words.resize (words : tally.Words) (old new : Nat) : (tally.resize old new).Words :=
  ⟨words.1, words.2.1, wadd_lt _ _⟩

end Tally

/-- A reallocation replaces one charge by another. -/
theorem Recharge.balance {change : Tally → Tally} (recharge : Recharge old new change)
    (word : old ≤ 2 ^ 64) (tally : Tally) :
    (change tally).balance = tally.balance + (1, (new : Residue)) - (1, (old : Residue)) := by
  cases recharge with
  | same equal =>
      subst equal
      exact (add_sub_cancel_right _ _).symm
  | resize => exact Tally.balance_resize word new tally
  | move => rw [Function.comp_apply, Tally.balance_free word, Tally.balance_alloc]

theorem Recharge.words {change : Tally → Tally} (recharge : Recharge old new change)
    (words : tally.Words) : (change tally).Words := by
  cases recharge with
  | same _ => exact words
  | resize => exact words.resize old new
  | move => exact (words.alloc new).free old

/-! ## The books of a state -/

/-- What one live block amounts to. -/
def LiveBlock.balance (core : BcCore) (b : LiveBlock) : Balance := (1, (b.charge core : Residue))

/-- What the live blocks amount to. -/
def liveBalance (core : BcCore) (live : List LiveBlock) : Balance :=
  (live.map (LiveBlock.balance core)).sum

theorem liveBalance_cons (b : LiveBlock) (live : List LiveBlock) :
    liveBalance core (b :: live) = b.balance core + liveBalance core live := by
  simp [liveBalance]

theorem liveBalance_perm {live live' : List LiveBlock} (perm : live.Perm live') :
    liveBalance core live = liveBalance core live' :=
  (perm.map _).sum_eq

/-- What the counters say beyond the live blocks. -/
def PoolState.surplus (core : BcCore) (s : PoolState) : Balance :=
  s.world.ctx.tally.balance - liveBalance core s.live

/-- The books of a state: the surplus of its counters, if it keeps any. -/
def PoolState.books (core : BcCore) (s : PoolState) : Option Balance :=
  if s.world.ctx.trackingEnabled then some (s.surplus core) else none

/-- A state has given books, and counters that are words. -/
structure PoolState.Booked (core : BcCore) (books : Option Balance) (s : PoolState) : Prop where
  books : s.books core = books
  words : s.world.ctx.trackingEnabled = true → s.world.ctx.tally.Words

/-- States with the same books both keep counters or both do not. -/
theorem PoolState.Booked.tracking {books : Option Balance} (first : s.Booked core books)
    (second : s'.Booked core books) :
    s'.world.ctx.trackingEnabled = s.world.ctx.trackingEnabled := by
  have same := second.books.trans first.books.symm
  unfold PoolState.books at same
  split at same <;> split at same <;> simp_all

/-- Two states with the same books and live blocks report the same figures. -/
theorem PoolState.figures_eq {books : Option Balance} (first : s.Booked core books)
    (second : s'.Booked core books) (same : s'.live.Perm s.live) :
    wsub (contextGetStats s'.world.ctx).poolAllocCount
        (contextGetStats s'.world.ctx).poolFreeCount =
        wsub (contextGetStats s.world.ctx).poolAllocCount
          (contextGetStats s.world.ctx).poolFreeCount ∧
      (contextGetStats s'.world.ctx).poolActiveBytes =
        (contextGetStats s.world.ctx).poolActiveBytes := by
  have tracking := first.tracking second
  unfold contextGetStats
  rw [tracking]
  cases enabled : s.world.ctx.trackingEnabled with
  | false => exact ⟨rfl, rfl⟩
  | true =>
    have enabled' := tracking.trans enabled
    obtain ⟨_, freed, active⟩ := first.words enabled
    obtain ⟨_, freed', active'⟩ := second.words enabled'
    have both : s'.surplus core = s.surplus core := by
      have equal := second.books.trans first.books.symm
      unfold PoolState.books at equal
      rw [if_pos enabled, if_pos enabled'] at equal
      exact Option.some_injective _ equal
    have equal : s'.world.ctx.tally.balance = s.world.ctx.tally.balance := by
      unfold PoolState.surplus at both
      rwa [liveBalance_perm same, sub_left_inj] at both
    obtain ⟨counts, sums⟩ := Prod.ext_iff.mp equal
    constructor
    · refine eq_of_residue (wsub_lt _ _) (wsub_lt _ _) ?_
      exact (wsub_residue (Nat.le_of_lt freed')).trans
        (counts.trans (wsub_residue (Nat.le_of_lt freed)).symm)
    · exact eq_of_residue active' active sums

/-! ## What keeps the books -/

section Moves

variable {books : Option Balance} {live : List LiveBlock} {spans : List Span} {b c : LiveBlock}

/-- The books after a step, from what it does to the counters and to the live
blocks. -/
theorem PoolState.Booked.step {change : Tally → Tally} (booked : s.Booked core books)
    (update : PoolUpdate change s.world w')
    (balanced : (change s.world.ctx.tally).balance - liveBalance core live =
      s.world.ctx.tally.balance - liveBalance core s.live)
    (words : s.world.ctx.tally.Words → (change s.world.ctx.tally).Words) :
    PoolState.Booked core books ⟨w', live, spans⟩ := by
  have tracking : w'.ctx.trackingEnabled = s.world.ctx.trackingEnabled := update.trackingEnabled
  constructor
  case books =>
    rw [← booked.books]
    unfold PoolState.books PoolState.surplus
    dsimp only
    rw [tracking]
    cases enabled : s.world.ctx.trackingEnabled with
    | false => rfl
    | true => rw [update.tally enabled, balanced]
  case words =>
    intro enabled
    have before := tracking.symm.trans enabled
    dsimp only
    rw [update.tally before]
    exact words (booked.words before)

/-- A step without tracking, on the same live blocks. -/
theorem PoolState.Booked.same (booked : s.Booked core books)
    (update : PoolUpdate id s.world w') :
    PoolState.Booked core books ⟨w', s.live, spans⟩ :=
  booked.step update rfl id

/-- A new block is charged. -/
theorem PoolState.Booked.grant (booked : s.Booked core books)
    (update : PoolUpdate (Tally.alloc (b.charge core)) s.world w') :
    PoolState.Booked core books ⟨w', b :: s.live, spans⟩ := by
  refine booked.step update ?_ fun words => words.alloc _
  rw [Tally.balance_alloc, liveBalance_cons, LiveBlock.balance]
  abel

/-- The charge of a live block is a word. -/
theorem PoolInv.charge_le (inv : PoolInv core platform s) (member : b ∈ s.live) :
    b.charge core ≤ 2 ^ 64 := by
  have total := inv.chargedBytes_le
  have half := inv.total_lt
  have one : b.charge core ≤ chargedBytes core s.live := by
    rw [(inv.split_live member).2]
    exact Nat.le_add_right _ _
  omega

/-- What the live blocks amount to, with one of them set apart. -/
theorem PoolInv.liveBalance_split (inv : PoolInv core platform s) (member : b ∈ s.live) :
    liveBalance core s.live = b.balance core + liveBalance core (dropLive s.live b.ptr) := by
  rw [← liveBalance_cons]
  exact liveBalance_perm (dropLive_perm inv.nodup member)

/-- A released block is credited. -/
theorem PoolState.Booked.release (booked : s.Booked core books) (inv : PoolInv core platform s)
    (member : b ∈ s.live) (update : PoolUpdate (Tally.free (b.charge core)) s.world w') :
    PoolState.Booked core books ⟨w', dropLive s.live b.ptr, spans⟩ := by
  refine booked.step update ?_ fun words => words.free _
  rw [Tally.balance_free (inv.charge_le member), inv.liveBalance_split member, LiveBlock.balance]
  abel

/-- A block is exchanged for another. -/
theorem PoolState.Booked.exchange {change : Tally → Tally} (booked : s.Booked core books)
    (inv : PoolInv core platform s) (member : b ∈ s.live) (update : PoolUpdate change s.world w')
    (recharge : Recharge (b.charge core) (c.charge core) change) :
    PoolState.Booked core books ⟨w', c :: dropLive s.live b.ptr, spans⟩ := by
  refine booked.step update ?_ recharge.words
  rw [recharge.balance (inv.charge_le member), inv.liveBalance_split member, liveBalance_cons,
    LiveBlock.balance, LiveBlock.balance]
  abel

end Moves

end BcAllocators
