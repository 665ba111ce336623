import BcAllocators.Shared.Tenants

/-!
# Users of one pool

Any number of users share a pool, each with a block, a slab or a typed array, and take
turns in any order while calls of the pool fail. A turn of one of them exchanges its own
blocks, leaves those of the others alone, and does to what the user can read what the
same call does to a user without memory (`UserTurn.turned`). So the pool is divided among
its users at any time, and all of them together are users that share nothing
(`users_refine_stores`).
-/

set_option autoImplicit false

namespace BcAllocators

open Machine

variable {σ : Type} {core : BcCore} {pool : PoolApi σ} {view : PoolView σ} {s s' : σ}
variable {others : List Grant} {x x' : Tenant} {event : UserEvent} {result : PtrResult}

/-! ## One turn -/

/-- A turn of a user: it has new blocks, those of the others are as they were, and what
it can read is what an abstract user has. -/
structure Turned (pool : PoolApi σ) (view : PoolView σ) (others : List Grant) (s : σ)
    (x : Tenant) (event : UserEvent) (s' : σ) (x' : Tenant) : Prop where
  sound : view.Sound s'
  blocks : ∃ own : List Grant, (view.grants s').Perm (own ++ others) ∧ x'.Stands pool s' own
  keeps : Keeps pool view others s s'
  made : StoreTurn (x.store pool s) event (x'.store pool s')

section Blocks

variable {ptr size newSize offset : Nat} {bytes : List UInt8} {g : Grant}

theorem turned_allocate (contract : PoolContract pool view) (sound : view.Sound s)
    (held : (view.grants s).Perm others) (word : size < 2 ^ 64)
    (called : pool.allocate s size = (s', result)) (trusted : view.Trusted s') :
    Turned pool view others s .vacant (.allocate size result) s'
      (if result.ok then .block result.out size else .vacant) := by
  have kept : view.Trusted (pool.allocate s size).1 := by rwa [called]
  obtain ⟨sound', keeps, outcome⟩ := contract.allocate sound word kept
  rw [called] at sound' keeps outcome
  have spared := keeps.mono fun g member => held.mem_iff.mpr member
  rcases outcome with ⟨refused, same⟩ | ⟨g, granted, requested, more⟩
  · obtain rfl : result = .failed := refused
    exact ⟨sound', ⟨[], (List.Perm.of_eq same).trans held, rfl⟩, spared, .allocateRefused⟩
  · obtain rfl : result = ⟨true, g.ptr⟩ := granted
    refine ⟨sound', ⟨[g], (List.Perm.of_eq more).trans (held.cons g), g, rfl, rfl, requested⟩,
      spared, .allocate (loadBytes_length _ _ _)⟩

/-- The block that a user has. -/
theorem mem_own (held : (view.grants s).Perm ([g] ++ others)) : g ∈ view.grants s :=
  held.mem_iff.mpr List.mem_cons_self

/-- The blocks that are left without it. -/
theorem PoolContract.drop_own (contract : PoolContract pool view) (sound : view.Sound s)
    (held : (view.grants s).Perm ([g] ++ others)) :
    (dropGrant (view.grants s) g.ptr).Perm others :=
  (held.filter _).trans (.of_eq (dropGrant_cons (contract.others_ne sound held)))

theorem turned_reallocate (contract : PoolContract pool view) (sound : view.Sound s)
    (held : (view.grants s).Perm ([g] ++ others)) (word : newSize < 2 ^ 64)
    (called : pool.reallocate s g.ptr newSize = (s', result)) (trusted : view.Trusted s') :
    Turned pool view others s (.block g.ptr g.requested) (.reallocate newSize result) s'
      (if result.ok then .block result.out newSize else .block g.ptr g.requested) := by
  have kept : view.Trusted (pool.reallocate s g.ptr newSize).1 := by rwa [called]
  obtain ⟨sound', outcome⟩ := contract.reallocate sound (mem_own held) word kept
  rw [called] at sound' outcome
  have dropped : (dropGrant (view.grants s) g.ptr).Perm others := contract.drop_own sound held
  rcases outcome with ⟨refused, same, keeps⟩ | ⟨g', granted, requested, more, keeps, copied⟩
  · obtain rfl : result = .failed := refused
    have stays := Tenant.stays (x := .block g.ptr g.requested) contract sound sound'
      (Multiset.singleton_le.mpr (Multiset.mem_coe.mpr (mem_own held)))
      (Multiset.singleton_le.mpr (Multiset.mem_coe.mpr (same ▸ mem_own held)))
      ⟨g, rfl, rfl, rfl⟩
      (keeps.mono fun h member => List.mem_singleton.mp member ▸ mem_own held).blocks
    refine ⟨sound', ⟨[g], (List.Perm.of_eq same).trans held, stays.1⟩,
      keeps.mono fun h member => held.mem_iff.mpr (List.mem_append_right _ member), ?_⟩
    change StoreTurn _ _ (Tenant.store pool s' (.block g.ptr g.requested))
    rw [stays.2]
    exact .reallocateRefused
  · obtain rfl : result = ⟨true, g'.ptr⟩ := granted
    refine ⟨sound', ⟨[g'], (List.Perm.of_eq more).trans (dropped.cons g'), g', rfl, rfl,
      requested⟩, keeps.mono fun h member => dropped.mem_iff.mpr member, ?_⟩
    refine .reallocate (loadBytes_length _ _ _) ?_
    rw [loadBytes_length, loadBytes_take _ _ _ _ (min_le_right _ _),
      loadBytes_take _ _ _ _ (min_le_left _ _)]
    exact loadBytes_eq_iff.mpr copied

theorem turned_free (contract : PoolContract pool view) (sound : view.Sound s)
    (held : (view.grants s).Perm ([g] ++ others)) :
    Turned pool view others s (.block g.ptr g.requested) .free (pool.free s g.ptr) .vacant := by
  obtain ⟨sound', left, keeps⟩ := contract.free_one sound held
  exact ⟨sound', ⟨[], left, rfl⟩, keeps, .free⟩

theorem turned_write (contract : PoolContract pool view) (sound : view.Sound s)
    (held : (view.grants s).Perm ([g] ++ others)) (inside : offset + bytes.length ≤ g.requested) :
    Turned pool view others s (.block g.ptr g.requested) (.write offset bytes)
      (pool.setMemory s (storeBytes (pool.memory s) (g.ptr + offset) bytes))
      (.block g.ptr g.requested) := by
  have enough := (contract.bounds sound g (mem_own held)).2.2.1
  have changes : ChangesOnly g.extent.bytes (pool.memory s)
      (storeBytes (pool.memory s) (g.ptr + offset) bytes) := by
    refine (changesOnly_storeBytes _ _ _).mono fun b within => ?_
    rw [Set.mem_Ico] at within
    rw [Extent.mem_bytes]
    unfold Grant.extent
    dsimp only
    omega
  obtain ⟨sound', same⟩ := contract.write sound (mem_own held) changes
  have keeps := contract.write_own_keeps sound held
    (changes.mono fun a within => ⟨g, List.mem_singleton_self g, within⟩)
  refine ⟨sound', ⟨[g], (List.Perm.of_eq same).trans held, g, rfl, rfl, rfl⟩, keeps, ?_⟩
  have spliced : loadBytes (storeBytes (pool.memory s) (g.ptr + offset) bytes) g.ptr g.requested =
      ByteHeap.splice (loadBytes (pool.memory s) g.ptr g.requested) offset bytes := by
    rw [ByteHeap.loadBytes_storeBytes_splice (Nat.le_add_right _ _) (by omega),
      Nat.add_sub_cancel_left]
  change StoreTurn _ _ (.block (loadBytes (pool.memory (pool.setMemory s _)) _ _))
  rw [contract.memory_setMemory, spliced]
  exact .write (by rwa [loadBytes_length])

end Blocks

section Slabs

variable {objectSize objectsPerSlab memory a address : Nat} {live rest : List Nat} {v : SlabView}
variable {bytes : List UInt8}

/-- The slab of a view, as its user knows it. -/
abbrev SlabView.tenant (v : SlabView) : Tenant :=
  .slab v.address v.objectSize v.objectsPerSlab v.live

/-- A slab stands on its blocks. -/
theorem SlabInv.stands (inv : SlabInv pool view s v others) :
    ∃ own : List Grant, (view.grants s).Perm (own ++ others) ∧ v.tenant.Stands pool s own :=
  ⟨v.grants, inv.held, v, rfl, rfl, rfl, rfl, rfl, inv.shape, inv.layout⟩

theorem turned_createSlab (contract : PoolContract pool view) (sound : view.Sound s)
    (held : (view.grants s).Perm others) (fits : objectsPerSlab * objectSize < 2 ^ 64)
    (called : slabCreate pool s memory objectSize objectsPerSlab = (s', result))
    (trusted : view.Trusted s') :
    Turned pool view others s .vacant (.createSlab objectSize objectsPerSlab result) s'
      (if result.ok then .slab result.out objectSize objectsPerSlab [] else .vacant) := by
  have kept : view.Trusted (slabCreate pool s memory objectSize objectsPerSlab).1 := by
    rwa [called]
  have outcome := slabCreate_spec contract sound fits kept
  have keeps := slabCreate_keeps contract sound fits kept
  rw [called] at outcome keeps
  have spared := keeps.mono fun g member => held.mem_iff.mpr member
  rcases outcome with ⟨refused, nothing⟩ | ⟨v, made, created⟩
  · obtain rfl : result = .failed := refused
    exact ⟨nothing.sound, ⟨[], (List.Perm.of_eq nothing.grants).trans held, rfl⟩, spared,
      .createSlabRefused⟩
  · obtain rfl : result = ⟨true, v.address⟩ := made
    obtain ⟨rfl, rfl, none, _, inv⟩ := created
    exact ⟨inv.sound, ⟨v.grants, inv.held.trans (held.append_left v.grants), v, rfl, rfl, rfl, rfl,
      none, inv.shape, inv.layout⟩, spared, .createSlab⟩

/-- The objects that a step keeps have the contents that they had. -/
theorem SlabKept.contents (kept : SlabKept pool view s v others s') :
    ByteHeap.contents (pool.memory s') (objectExtents v.objectSize v.live) =
      ByteHeap.contents (pool.memory s) (objectExtents v.objectSize v.live) := by
  refine ByteHeap.contents_congr fun e member c inside => ?_
  obtain ⟨a, live, rfl⟩ := List.mem_map.mp member
  exact kept.objects a live c inside

/-- An object that was handed out is new, and the others are as they were. -/
theorem ObjectTaken.turned (taken : ObjectTaken pool view v others s' a rest)
    (kept : SlabKept pool view s v others s') :
    Turned pool view others s v.tenant (.allocateObject ⟨true, a⟩) s'
      (v.move rest (a :: v.live)).tenant := by
  have fresh : a ∉ v.live := by
    have nodup := taken.inv.layout.nodup
    exact (List.nodup_cons.mp (List.nodup_append.mp nodup).2.1).1
  refine ⟨taken.inv.sound, taken.inv.stands, kept.others, .allocateObject ⟨?_, _,
    loadBytes_length (pool.memory s') a v.objectSize, ?_⟩⟩
  · refine ByteHeap.contents_of_not_mem fun e member same => ?_
    obtain ⟨b, live, rfl⟩ := List.mem_map.mp member
    exact fresh (same ▸ live)
  · rw [← kept.contents]
    exact ByteHeap.contents_cons _ ⟨a, v.objectSize⟩ _

theorem turned_allocateObject (contract : PoolContract pool view)
    (inv : SlabInv pool view s v others) (called : slabAllocate pool s v.address = (s', result))
    (trusted : view.Trusted s') :
    Turned pool view others s v.tenant (.allocateObject result) s'
      (.slab v.address v.objectSize v.objectsPerSlab
        (if result.ok then result.out :: v.live else v.live)) := by
  have trusted' : view.Trusted (slabAllocate pool s v.address).1 := by rwa [called]
  have outcome := slabAllocate_spec contract inv trusted'
  have kept := slabAllocate_kept contract inv trusted'
  rw [called] at outcome kept
  cases outcome with
  | refused _ failed nothing =>
      obtain rfl : result = .failed := failed
      refine ⟨nothing.sound, (nothing.slab inv).stands, kept.others, ?_⟩
      have same := kept.contents
      dsimp only at same
      change StoreTurn _ _ (.objects v.objectSize
        (ByteHeap.contents (pool.memory s') (objectExtents v.objectSize v.live)))
      rw [same]
      exact .allocateObjectRefused
  | @reused a rest made _ object =>
      obtain rfl : result = ⟨true, a⟩ := made
      exact object.turned kept
  | @added p a rest _ made _ object =>
      obtain rfl : result = ⟨true, a⟩ := made
      exact object.turned ⟨kept.others, kept.objects⟩

/-- The objects without one of them. -/
theorem objectExtents_erase (nodup : live.Nodup) :
    objectExtents objectSize (live.erase a) =
      (objectExtents objectSize live).filter fun e => e.start ≠ a := by
  unfold objectExtents
  rw [nodup.erase_eq_filter, List.filter_map]
  congr 1
  exact List.filter_congr fun b _ => Bool.eq_iff_iff.mpr (by simp)

theorem turned_freeObject (contract : PoolContract pool view)
    (inv : SlabInv pool view s v others) (member : a ∈ v.live) :
    Turned pool view others s v.tenant (.freeObject a) (slabFree pool s v.address a)
      (.slab v.address v.objectSize v.objectsPerSlab (v.live.erase a)) := by
  have split := List.perm_cons_erase member
  have inv' := (slabFree_spec contract inv split).1
  have kept := slabFree_kept contract inv split
  refine ⟨inv'.sound, inv'.stands, kept.others, .freeObject ?_⟩
  refine kept.contents.trans ?_
  have nodup := (List.nodup_append.mp inv.layout.nodup).2.1
  change ByteHeap.contents _ (objectExtents v.objectSize (v.live.erase a)) = _
  rw [objectExtents_erase nodup, ByteHeap.contents_filter]

/-- Live objects are apart. -/
theorem SlabLayout.objectExtents_pairwise (layout : SlabLayout v) :
    (objectExtents v.objectSize v.live).Pairwise Extent.Apart := by
  have nodup := (List.nodup_append.mp layout.nodup).2.1
  refine List.pairwise_map.mpr (nodup.imp_of_mem fun {a b} ha hb different => ?_)
  exact layout.slots_apart (layout.live_mem ha) (layout.live_mem hb) different

theorem turned_writeObject (contract : PoolContract pool view)
    (inv : SlabInv pool view s v others) (member : a ∈ v.live) (lower : a ≤ address)
    (upper : address + bytes.length ≤ a + v.objectSize) :
    Turned pool view others s v.tenant (.writeObject address bytes)
      (pool.setMemory s (storeBytes (pool.memory s) address bytes)) v.tenant := by
  have inv' := inv.writeObject contract member lower upper
  refine ⟨inv'.sound, inv'.stands, inv.writeObject_keeps contract member lower upper,
    .writeObject ?_⟩
  rw [contract.memory_setMemory]
  have starts : (objectExtents v.objectSize v.live).map Extent.start = v.live := by
    unfold objectExtents
    rw [List.map_map]
    exact List.map_id _
  refine ByteHeap.contents_write inv.layout.objectExtents_pairwise
    (starts.symm ▸ (List.nodup_append.mp inv.layout.nodup).2.1)
    (List.mem_map.mpr ⟨a, member, rfl⟩) lower upper

theorem turned_destroySlab (contract : PoolContract pool view)
    (inv : SlabInv pool view s v others) (called : slabDestroy pool s v.address = some s') :
    Turned pool view others s v.tenant .destroySlab s' .vacant := by
  obtain ⟨returns, _, sound, left, keeps⟩ := slabDestroy_spec contract inv
  obtain rfl := Option.some.inj (called.symm.trans returns)
  exact ⟨sound, ⟨[], left, rfl⟩, keeps, .destroySlab⟩

end Slabs

section Arrays

variable {elementSize : Nat} {t t' : ArrayState σ} {own : List Grant}

/-- The blocks of others than an array. -/
theorem Tenant.array_others (contract : PoolContract pool view) (sound : view.Sound s)
    {arr : TypedArray} (held : (view.grants s).Perm (own ++ others))
    (stands : Tenant.Stands pool s (.array elementSize arr) own) :
    ((⟨s, arr⟩ : ArrayState σ).others view).Perm others := by
  unfold ArrayState.others
  obtain ⟨_, _, _, ⟨none, null, _⟩ | ⟨g, one, holds⟩⟩ := stands
  · obtain rfl : own = [] := Multiset.coe_eq_zero own |>.mp none
    rw [null, contract.drop_null sound]
    exact held
  · obtain rfl : own = [g] := Multiset.coe_eq_singleton.mp one
    rw [← holds.ptr]
    exact contract.drop_own sound held

/-- An array stands on its block, if it has one. -/
theorem ArrayInv.stands (contract : PoolContract pool view) (inv : ArrayInv view elementSize t)
    (pos : 0 < elementSize) (sizeWord : elementSize < 2 ^ 64)
    (left : (t.others view).Perm others) :
    ∃ own : List Grant, (view.grants t.pool).Perm (own ++ others) ∧
      Tenant.Stands pool t.pool (.array elementSize t.array) own := by
  rcases inv.block with ⟨null, none⟩ | ⟨g, held, holds⟩
  · have all : t.others view = view.grants t.pool := by
      unfold ArrayState.others
      rw [null, contract.drop_null inv.sound]
    exact ⟨[], all ▸ left, pos, sizeWord, inv.length_le, Or.inl ⟨rfl, null, none⟩⟩
  · have split := List.perm_cons_erase held
    have dropped := contract.drop_own inv.sound split
    rw [holds.ptr] at dropped
    exact ⟨[g], split.trans ((dropped.symm.trans left).cons g), pos, sizeWord, inv.length_le,
      Or.inr ⟨g, rfl, holds⟩⟩

/-- Done or refused, a call leaves the blocks of others. -/
theorem ArrayOutcome.step {l : List (Element elementSize)} {result : ArrayState σ × Bool}
    (outcome : ArrayOutcome pool view elementSize t l result) :
    ∃ l', ArrayStep pool view elementSize t result.1 l' := by
  cases outcome with
  | done step => exact ⟨_, step⟩
  | refused step _ => exact ⟨_, step⟩

theorem turned_array (contract : PoolContract pool view) (sound : view.Sound t.pool)
    (held : (view.grants t.pool).Perm (own ++ others))
    (stands : Tenant.Stands pool t.pool (.array elementSize t.array) own)
    {event : ListEvent elementSize} (mine : event.op ≠ .neighbour)
    (step : (arraySystem core pool view elementSize).Next t event t') :
    Turned pool view others t.pool (.array elementSize t.array) (.array event) t'.pool
      (.array elementSize t'.array) := by
  have among : (own : Multiset Grant) ≤ (view.grants t.pool : Multiset Grant) :=
    Multiset.coe_le.mpr ((List.sublist_append_left own others).subperm.trans held.symm.subperm)
  have inv := Tenant.arrayInv sound among stands
  have left := Tenant.array_others contract sound held stands
  obtain ⟨pos, sizeWord, _, _⟩ := stands
  have outcome := inv.outcome contract pos sizeWord step mine
  have elements := outcome.refines.elements
  obtain ⟨_, inv', _, same, keeps⟩ := outcome.step
  refine ⟨inv'.sound, inv'.stands contract pos sizeWord (same ▸ left),
    keeps.mono fun g member => left.mem_iff.mpr member, ?_⟩
  change StoreTurn _ _ (.list elementSize (arrayElements pool elementSize t'))
  rw [elements]
  exact .array

end Arrays

/-! ## Any turn -/

section Own

variable {own : List Grant}

theorem Tenant.vacant_own (stands : Tenant.Stands pool s .vacant own) : own = [] :=
  (Multiset.coe_eq_zero own).mp stands

theorem Tenant.block_own {ptr size : Nat} (stands : Tenant.Stands pool s (.block ptr size) own) :
    ∃ g : Grant, own = [g] ∧ g.ptr = ptr ∧ g.requested = size := by
  obtain ⟨g, one, same⟩ := stands
  exact ⟨g, Multiset.coe_eq_singleton.mp one, same⟩

/-- The slab that stands on blocks of a state. -/
theorem Tenant.slabInv {slab objectSize objectsPerSlab : Nat} {live : List Nat}
    (sound : view.Sound s) (held : (view.grants s).Perm (own ++ others))
    (stands : Tenant.Stands pool s (.slab slab objectSize objectsPerSlab live) own) :
    ∃ v : SlabView, v.address = slab ∧ v.objectSize = objectSize ∧
      v.objectsPerSlab = objectsPerSlab ∧ v.live = live ∧ SlabInv pool view s v others := by
  obtain ⟨v, blocks, address, size, count, objects, shape, layout⟩ := stands
  have perm := (Multiset.coe_eq_coe.mp blocks).append_right others
  exact ⟨v, address, size, count, objects, sound, held.trans perm, shape, layout⟩

/-- **Any call of a user** exchanges its own blocks and is a call of an abstract user. -/
theorem UserTurn.turned (contract : PoolContract pool view) (sound : view.Sound s)
    (held : (view.grants s).Perm (own ++ others)) (stands : x.Stands pool s own)
    (turn : UserTurn core pool view s x event s' x') (trusted : view.Trusted s') :
    Turned pool view others s x event s' x' := by
  cases turn with
  | allocate word called =>
      obtain rfl := Tenant.vacant_own stands
      exact turned_allocate contract sound held word called trusted
  | reallocate word called =>
      obtain ⟨g, rfl, rfl, rfl⟩ := Tenant.block_own stands
      exact turned_reallocate contract sound held word called trusted
  | free =>
      obtain ⟨g, rfl, rfl, rfl⟩ := Tenant.block_own stands
      exact turned_free contract sound held
  | write inside =>
      obtain ⟨g, rfl, rfl, rfl⟩ := Tenant.block_own stands
      exact turned_write contract sound held inside
  | createSlab fits called =>
      obtain rfl := Tenant.vacant_own stands
      exact turned_createSlab contract sound held fits called trusted
  | allocateObject called =>
      obtain ⟨v, rfl, rfl, rfl, rfl, inv⟩ := Tenant.slabInv sound held stands
      exact turned_allocateObject contract inv called trusted
  | freeObject member =>
      obtain ⟨v, rfl, rfl, rfl, rfl, inv⟩ := Tenant.slabInv sound held stands
      exact turned_freeObject contract inv member
  | writeObject member lower upper =>
      obtain ⟨v, rfl, rfl, rfl, rfl, inv⟩ := Tenant.slabInv sound held stands
      exact turned_writeObject contract inv member lower upper
  | destroySlab called =>
      obtain ⟨v, rfl, rfl, rfl, rfl, inv⟩ := Tenant.slabInv sound held stands
      exact turned_destroySlab contract inv called
  | declareArray pos word =>
      obtain rfl := Tenant.vacant_own stands
      exact ⟨sound, ⟨[], held, pos, word, Nat.le_refl 0, Or.inl ⟨rfl, rfl, rfl⟩⟩, Keeps.refl s,
        .declareArray⟩
  | array mine step => exact turned_array contract sound held stands mine step
  | dropArray =>
      -- an array that is zero has no block, so the blocks there are belong to others
      have all := Tenant.array_others contract sound held stands
      have none : (view.grants s).Perm others :=
        (List.Perm.of_eq (contract.drop_null sound)).symm.trans all
      exact ⟨sound, ⟨[], none, rfl⟩, Keeps.refl s, .dropArray⟩

end Own

/-! ## All users -/

/-- Users of a pool in turns, who have nothing at the start. -/
abbrev userSystem (ι : Type) (core : BcCore) (pool : PoolApi σ) (view : PoolView σ) :
    System (σ × (ι → Tenant)) (ι × UserEvent) :=
  parties ι (fun s => view.Sound s ∧ view.grants s = []) .vacant fun s x event s' x' =>
    view.Trusted s' ∧ UserTurn core pool view s x event s' x'

/-- Users that share nothing. -/
abbrev storeSystem (ι : Type) : System (ι → Store) (ι × UserEvent) := alone ι .vacant StoreTurn

/-- Users of a pool follow users that share nothing. -/
theorem users_follow (contract : PoolContract pool view) :
    (poolTenure contract).Follows
      (fun s x event s' x' => view.Trusted s' ∧ UserTurn core pool view s x event s' x')
      StoreTurn := by
  intro s s' x x' event own others sound held stands turn
  induction own using Quotient.inductionOn with | h own =>
  induction others using Quotient.inductionOn with | h others =>
  obtain ⟨trusted, turn⟩ := turn
  obtain ⟨sound', ⟨own', held', stands'⟩, keeps, made⟩ :=
    turn.turned contract sound (Multiset.coe_eq_coe.mp held) stands trusted
  exact ⟨own', ⟨sound', Multiset.coe_eq_coe.mpr held', keeps.blocks⟩, stands', made⟩

section Results

variable {ι : Type} [Fintype ι] [DecidableEq ι] {tenants : ι → Tenant}

/-- **The pool is divided among its users**: each block that is held belongs to one of
them, what a user has stands on its blocks, and the blocks of two users are apart. -/
structure DividedPool (pool : PoolApi σ) (view : PoolView σ) (s : σ) (tenants : ι → Tenant)
    (own : ι → Multiset Grant) : Prop where
  held : (view.grants s : Multiset Grant) = ∑ i, own i
  stands : ∀ i, (tenants i).Stands pool s (own i)
  apart : ∀ i j, i ≠ j → ∀ g ∈ own i, ∀ h ∈ own j, g.extent.Apart h.extent

/-- A division by tenure is a division of the pool. -/
theorem DividedPool.of_tenure (contract : PoolContract pool view) {own : ι → Multiset Grant}
    (divided : (poolTenure contract).Divided s tenants own) :
    DividedPool pool view s tenants own := by
  refine ⟨divided.held, divided.stands, fun i j different g mine h yours => ?_⟩
  have split : ((view.grants s : List Grant) : Multiset Grant) = _ := divided.split i
  have among := Multiset.mem_of_le (Tenure.le_others own (Ne.symm different)) yours
  generalize ∑ k ∈ Finset.univ.erase i, own k = others at split among
  generalize own i = here at split mine
  induction here using Quotient.inductionOn with | h here =>
  induction others using Quotient.inductionOn with | h others =>
  exact contract.owners_apart divided.sound (Multiset.coe_eq_coe.mp split) mine among

omit [DecidableEq ι] in
/-- Users that have nothing hold no block. -/
theorem DividedPool.empty {own : ι → Multiset Grant}
    (divided : DividedPool pool view s tenants own) (nothing : ∀ i, tenants i = .vacant) :
    view.grants s = [] := by
  have none : ∀ i, own i = 0 := by
    intro i
    have stands := divided.stands i
    rw [nothing i] at stands
    exact stands
  have held := divided.held
  rw [Finset.sum_congr rfl fun i _ => none i, Finset.sum_const_zero] at held
  exact (Multiset.coe_eq_zero _).mp held

/-- **Users of one pool are users that share nothing.** However many users take turns on
the pool of the repository, from an empty one and whichever of its calls fail: what they
can read is at any time what the same calls give users without memory, each by itself;
the blocks that are held are divided among them; and when all of them have given up what
they had, no block is live. -/
theorem users_refine_stores (core : BcCore) (platform : Platform) {s : PoolState}
    (start : (poolSystem core platform).Start s) (faults : List Bool)
    {labels : List (ι × UserEvent)} {q : FaultyPool ClientPool × (ι → Tenant)}
    (run : (userSystem ι core (faultyPool core) (faultyView core platform s)).Run
      (⟨⟨s, true⟩, faults⟩, fun _ => .vacant) labels q) :
    (storeSystem ι).Run (fun _ => .vacant) labels
        (fun i => (q.2 i).store (faultyPool core) q.1) ∧
      (∃ own, DividedPool (faultyPool core) (faultyView core platform s) q.1 q.2 own) ∧
      ((∀ i, q.2 i = .vacant) → q.1.pool.state.live = []) := by
  have contract := faulty_contract core platform s
  have sound : (faultyView core platform s).Sound ⟨⟨s, true⟩, faults⟩ := ClientSound.start start
  have nothing : (faultyView core platform s).grants ⟨⟨s, true⟩, faults⟩ = [] := by
    obtain ⟨_, _, _, _, _, _, _, live, _⟩ := start
    exact congrArg (List.map (LiveBlock.grant core s.world.mem)) live
  have initial : (poolTenure contract).Divided (ι := ι) ⟨⟨s, true⟩, faults⟩ (fun _ => .vacant)
      fun _ => 0 := by
    refine ⟨sound, ?_, fun _ => rfl⟩
    rw [Finset.sum_const_zero]
    exact (Multiset.coe_eq_zero _).mpr nothing
  obtain ⟨⟨own, divided⟩, made⟩ := Tenure.Follows.run (users_follow contract) run initial
  have shared := DividedPool.of_tenure contract divided
  refine ⟨made, ⟨own, shared⟩, fun gone => ?_⟩
  have none := shared.empty gone
  exact List.map_eq_nil_iff.mp none

end Results

/-! ## Two users -/

/-- A user may make any call that the pool lives up to. -/
theorem userSystem_next {ι : Type} [DecidableEq ι] {p : σ × (ι → Tenant)} {i : ι}
    (turn : UserTurn core pool view p.1 (p.2 i) event s' x') (trusted : view.Trusted s') :
    (userSystem ι core pool view).Next p (i, event) (s', Function.update p.2 i x') := by
  refine ⟨⟨trusted, ?_⟩, fun j other => Function.update_of_ne other x' p.2⟩
  dsimp only
  rwa [Function.update_self]

/-- The pool of sixteen pages, whose second allocation will fail. -/
def secondFails : FaultyPool ClientPool := ⟨⟨sixteenPages, true⟩, [false, true]⟩

/-- The pool after a user has asked for a block. -/
def blockAsked : FaultyPool ClientPool × PtrResult :=
  (faultyPool BcCore.reference).allocate secondFails 24

/-- The pool after another user has asked for a slab, which fails. -/
def slabRefused : FaultyPool ClientPool × PtrResult :=
  slabCreate (faultyPool BcCore.reference) blockAsked.1 8192 1024 2

/-- The pool after it has asked again. -/
def slabAsked : FaultyPool ClientPool × PtrResult :=
  slabCreate (faultyPool BcCore.reference) slabRefused.1 8192 1024 2

/-- The users of these systems. -/
abbrev twoUsers : System (FaultyPool ClientPool × (Bool → Tenant)) (Bool × UserEvent) :=
  userSystem Bool BcCore.reference (faultyPool BcCore.reference)
    (faultyView BcCore.reference Platform.x86 sixteenPages)

/-- What the first user has then. -/
def firstTenant : Tenant := if blockAsked.2.ok then .block blockAsked.2.out 24 else .vacant

/-- What a user has that has asked for a slab. -/
def slabTenant (result : PtrResult) : Tenant :=
  if result.ok then .slab result.out 1024 2 [] else .vacant

/-- Both users after each of the calls. -/
def onlyBlock : FaultyPool ClientPool × (Bool → Tenant) :=
  (blockAsked.1, Function.update (fun _ => .vacant) false firstTenant)

def stillBlock : FaultyPool ClientPool × (Bool → Tenant) :=
  (slabRefused.1, Function.update onlyBlock.2 true (slabTenant slabRefused.2))

def blockAndSlab : FaultyPool ClientPool × (Bool → Tenant) :=
  (slabAsked.1, Function.update stillBlock.2 true (slabTenant slabAsked.2))

def blockAndSlabCalls : List (Bool × UserEvent) :=
  [(false, .allocate 24 blockAsked.2), (true, .createSlab 1024 2 slabRefused.2),
    (true, .createSlab 1024 2 slabAsked.2)]

theorem blockAndSlab_run :
    twoUsers.Run (secondFails, fun _ => .vacant) blockAndSlabCalls blockAndSlab := by
  have asked : slabCreate (faultyPool BcCore.reference) blockAsked.1 8192 1024 2 =
      (slabRefused.1, slabRefused.2) := Prod.mk.eta.symm
  have again : slabCreate (faultyPool BcCore.reference) slabRefused.1 8192 1024 2 =
      (slabAsked.1, slabAsked.2) := Prod.mk.eta.symm
  have refused : stillBlock.2 true = .vacant := by
    unfold stillBlock slabTenant
    dsimp only
    rw [Function.update_self, if_neg (by decide +kernel)]
  have first : twoUsers.Next (secondFails, fun _ => .vacant) (false, .allocate 24 blockAsked.2)
      onlyBlock :=
    userSystem_next (.allocate (by decide) Prod.mk.eta.symm)
      (show blockAsked.1.pool.faithful = true by decide +kernel)
  have second : twoUsers.Next onlyBlock (true, .createSlab 1024 2 slabRefused.2) stillBlock :=
    userSystem_next (.createSlab (by decide) asked)
      (show slabRefused.1.pool.faithful = true by decide +kernel)
  have turn : UserTurn BcCore.reference (faultyPool BcCore.reference)
      (faultyView BcCore.reference Platform.x86 sixteenPages) stillBlock.1 (stillBlock.2 true)
      (.createSlab 1024 2 slabAsked.2) slabAsked.1 (slabTenant slabAsked.2) := by
    rw [refused]
    exact .createSlab (by decide) again
  have third : twoUsers.Next stillBlock (true, .createSlab 1024 2 slabAsked.2) blockAndSlab := by
    unfold blockAndSlab
    exact userSystem_next turn (show slabAsked.1.pool.faithful = true by decide +kernel)
  exact (((System.Run.nil _).snoc first).snoc second).snoc third

theorem users_refine_stores_blockAndSlab :
    (storeSystem Bool).Run (fun _ => .vacant) blockAndSlabCalls
        (fun i => (blockAndSlab.2 i).store (faultyPool BcCore.reference) blockAndSlab.1) ∧
      (∃ own, DividedPool (faultyPool BcCore.reference)
        (faultyView BcCore.reference Platform.x86 sixteenPages) blockAndSlab.1 blockAndSlab.2
          own) ∧
      ((∀ i, blockAndSlab.2 i = .vacant) → blockAndSlab.1.pool.state.live = []) :=
  users_refine_stores BcCore.reference Platform.x86 sixteenPages_start [false, true]
    blockAndSlab_run

end BcAllocators
