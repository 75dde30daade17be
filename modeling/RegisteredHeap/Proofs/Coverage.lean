import RegisteredHeap.Proofs.Conservation

/-! # Coverage by registrations

Handles are made once and travel with their blocks, through frees and allocations. As long as a
block is held its handles grant what they say: the regions that they name are registered, and hold
the block.
-/

namespace RegisteredHeap

/-- The handle names the region for `n` bytes from `a` on, and these are inside the region. -/
structure Handle.Grants (h : Handle) (r : Region) (a : Address) (n : Nat) : Prop where
  localKey : h.localKey = r.key
  remoteKey : h.remoteKey = a
  address : h.address = a
  length : h.len = n
  covered : ∃ offset, a = r.base.advance offset ∧ offset + n ≤ r.len

/-- A note changes no more than the note. -/
theorem Block.of_bare {x y : Block} (same : x.bare = y) :
    x.origin = y.origin ∧ x.address = y.address ∧ x.size = y.size ∧ x.copy = y.copy ∧
      x.handle.localKey = y.handle.localKey := by
  subst same
  exact ⟨rfl, rfl, rfl, rfl, rfl⟩

theorem Handle.Grants.of_bare {x y : Block} {r : Region} (same : x.bare = y)
    (grants : y.handle.Grants r y.address y.size) : x.handle.Grants r x.address x.size := by
  subst same
  exact ⟨grants.localKey, grants.remoteKey, grants.address, grants.length, grants.covered⟩

theorem grants_ofUser (r : Region) :
    (Block.ofUser r).handle.Grants r (Block.ofUser r).address (Block.ofUser r).size where
  localKey := rfl
  remoteKey := Address.advance_zero r.base
  address := Address.advance_zero r.base
  length := rfl
  covered := ⟨0, (Address.advance_zero r.base).symm, (Nat.zero_add r.len).le⟩

namespace Segment

variable {s : Segment} {key : PoolKey} {i : Nat}

theorem size_blockAt {offset : Nat} (formed : s.Formed key) :
    (s.blockAt offset).size = key.blockSize :=
  congrArg PoolKey.blockSize formed.pool

theorem grants_blockAt (formed : s.Formed key) (inside : i < s.capacity) :
    (s.blockAt (i * key.blockSize)).handle.Grants s.region
      (s.blockAt (i * key.blockSize)).address key.blockSize := by
  have bound := end_le_of_lt_capacity formed inside
  obtain ⟨k, region⟩ := formed.region
  have base (offset : Nat) : s.region.base.advance offset = .host s.extent.number offset := by
    rw [region, Address.advance, Nat.zero_add]
  refine ⟨rfl, base _, base _, ?_, i * key.blockSize, (base _).symm, ?_⟩
  · rw [← formed.pool]
    rfl
  · rw [region]
    exact bound

/-- The copy of a block has a handle of its own, for the region on the device. -/
theorem copy_blockAt {device : Nat} (formed : s.Formed key) (inside : i < s.capacity)
    (wanted : key.device = some device) :
    ∃ side, s.device = some side ∧ side.region.device = some device ∧
      ∃ c, (s.blockAt (i * key.blockSize)).copy = some c ∧
        c.handle.Grants side.region c.address key.blockSize := by
  have bound := end_le_of_lt_capacity formed inside
  obtain ⟨side, known, fits⟩ := formed.copied device wanted
  obtain ⟨k, region⟩ := fits.region
  have base (offset : Nat) : side.region.base.advance offset =
      .device side.extent.number offset := by
    rw [region, Address.advance, Nat.zero_add]
  refine ⟨side, known, by rw [region], ⟨.device side.extent.number (i * key.blockSize),
    side.region.handle (i * key.blockSize) s.pool.blockSize⟩, ?_, rfl, base _, base _, ?_,
    i * key.blockSize, (base _).symm, ?_⟩
  · simp only [blockAt, known, Option.map_some]
  · rw [← formed.pool]
    rfl
  · rw [region]
    exact bound

end Segment

namespace Tenancy

variable {w : Tenancy} {l l' : Lease}

/-- What callers hold is backed by registrations. -/
structure Covered (w : Tenancy) : Prop where
  host : ∀ l ∈ w.leases, l.grip.block.isUser = false → ∃ r ∈ w.memory.backing.regions,
    l.grip.block.handle.Grants r l.grip.block.address l.grip.block.size
  single : ∀ l ∈ w.leases, ∀ key, l.grip.block.pool? = some key → key.device = none →
    l.grip.block.copy = none
  /-- A block of a pool for a device has a second region, registered for that device. -/
  device : ∀ l ∈ w.leases, ∀ key d, l.grip.block.pool? = some key → key.device = some d →
    ∃ c, l.grip.block.copy = some c ∧ ∃ r ∈ w.memory.backing.regions, r.device = some d ∧
      r.key ≠ l.grip.block.handle.localKey ∧ c.handle.Grants r c.address l.grip.block.size
  /-- Memory of a caller has a region of its own, which no other handle names. -/
  user : ∀ l ∈ w.leases, l.grip.block.isUser = true → ∃ r ∈ w.memory.backing.regions,
    r.flags.contains .user = true ∧ r.base = l.grip.block.address ∧ r.len = l.grip.block.size ∧
      l.grip.block.handle.Grants r l.grip.block.address l.grip.block.size ∧
      w.leases.countP (fun l' => l'.grip.block.handle.localKey = r.key) = 1
  /-- Blocks of pools share a key just when they are of one segment. -/
  sameKey : ∀ l ∈ w.leases, ∀ l' ∈ w.leases, l.grip.block.isUser = false →
    l'.grip.block.isUser = false →
      (l.grip.block.handle.localKey = l'.grip.block.handle.localKey ↔
        l.grip.block.origin = l'.grip.block.origin)

/-- What a block of a pool has from its segment. -/
theorem Sound.slice_of_lease (sound : w.Sound) (member : l ∈ w.leases) {key : PoolKey}
    (own : l.grip.block.pool? = some key) :
    ∃ s ∈ segmentsOf w.memory.pools, s.Formed key ∧
      ∃ i < s.capacity, l.grip.block.bare = s.blockAt (i * key.blockSize) := by
  obtain ⟨p, listed, same, -, s, there, slice⟩ :=
    sound.memory.ledger.segment_of_out (bare_mem_blocks member) own
  have formed := (sound.memory.ledger.sound p listed).formed s there
  rw [same] at formed
  obtain ⟨i, inside, block⟩ := Segment.mem_slices.mp slice
  rw [formed.pool] at block
  exact ⟨s, mem_segmentsOf.mpr ⟨p, listed, there⟩, formed, i, inside, block⟩

theorem isUser_of_pool? {x : Block} {key : PoolKey} (own : x.pool? = some key) :
    x.isUser = false := by
  unfold Block.pool? at own
  unfold Block.isUser
  split at own
  · simp_all
  · cases own

/-- What a user registered is held by one caller, and its key by no other handle. -/
theorem Sound.user_of_lease (sound : w.Sound) (member : l ∈ w.leases) {r : Region}
    (block : l.grip.block.bare = .ofUser r) :
    r ∈ w.memory.backing.regions ∧
      w.leases.countP (fun l' => l'.grip.block.handle.localKey = r.key) = 1 := by
  have ledger := sound.memory.ledger
  have user (x : Block) (inside : x ∈ w.blocks) (r : Region) (same : x = .ofUser r) :
      r ∈ regionsOf w.blocks := by
    subst same
    exact (Multiset.mem_filterMap _ _).mpr ⟨_, inside, rfl⟩
  have listed := user _ (bare_mem_blocks member) r block
  refine ⟨?_, ?_⟩
  · rw [ledger.regions]
    exact Multiset.mem_add.mpr (.inr listed)
  have only : ∀ l' ∈ w.leases, decide (l'.grip.block.handle.localKey = r.key) = true ↔
      l'.grip.block.bare = .ofUser r := by
    intro l' member'
    rw [decide_eq_true_eq]
    constructor
    · intro same
      rcases ledger.homes _ (bare_mem_blocks member') with ⟨p, -, own⟩ | ⟨r', block', -⟩
      · obtain ⟨s, there, -, i, -, block'⟩ := sound.slice_of_lease member' own
        obtain ⟨-, -, -, -, key⟩ := Block.of_bare block'
        exact absurd (key.symm.trans same) (ledger.key_ne_user there listed)
      · obtain ⟨-, -, -, -, key⟩ := Block.of_bare block'
        have listed' := user _ (bare_mem_blocks member') r' block'
        have regions := Multiset.inj_on_of_nodup_map ledger.user_keys r' listed' r listed
          (key.symm.trans same)
        rw [block', regions]
    · intro block'
      obtain ⟨-, -, -, -, key⟩ := Block.of_bare block'
      exact key
  rw [Ledger.countP_eq_count only, ← Multiset.coe_count]
  refine Multiset.count_eq_one_of_mem ledger.nodup_out ?_
  rw [← block]
  exact bare_mem_blocks member

theorem Sound.covered (sound : w.Sound) : w.Covered where
  host := by
    intro l member pooled
    obtain ⟨key, own⟩ := exists_pool? pooled
    obtain ⟨s, there, formed, i, inside, block⟩ := sound.slice_of_lease member own
    refine ⟨s.region, sound.memory.ledger.mem_regions there, ?_⟩
    apply Handle.Grants.of_bare block
    rw [Segment.size_blockAt formed]
    exact Segment.grants_blockAt formed inside
  single := by
    intro l member key own alone
    obtain ⟨s, there, formed, i, inside, block⟩ := sound.slice_of_lease member own
    obtain ⟨-, -, -, copy, -⟩ := Block.of_bare block
    rw [copy, Segment.blockAt, formed.single alone, Option.map_none]
  device := by
    intro l member key d own wanted
    obtain ⟨s, there, formed, i, inside, block⟩ := sound.slice_of_lease member own
    obtain ⟨side, known, device, c, copy, grants⟩ := Segment.copy_blockAt formed inside wanted
    obtain ⟨-, -, size, copy', localKey⟩ := Block.of_bare block
    refine ⟨c, copy'.trans copy, side.region,
      sound.memory.ledger.mem_regions_side there known, device, ?_, ?_⟩
    · rw [localKey]
      exact sound.memory.ledger.key_ne_side there there known
    · rw [size, Segment.size_blockAt formed]
      exact grants
  user := by
    intro l member mine
    rcases sound.memory.ledger.homes _ (bare_mem_blocks member) with
      ⟨p, -, own⟩ | ⟨r, block, flags, -⟩
    · have pooled : l.grip.block.isUser = false := isUser_of_pool? own
      cases pooled.symm.trans mine
    · obtain ⟨listed, alone⟩ := sound.user_of_lease member block
      obtain ⟨-, address, size, -, -⟩ := Block.of_bare block
      exact ⟨r, listed, by rw [flags]; rfl, address.symm, size.symm,
        Handle.Grants.of_bare block (grants_ofUser r), alone⟩
  sameKey := by
    intro l member l' member' pooled pooled'
    obtain ⟨key, own⟩ := exists_pool? pooled
    obtain ⟨key', own'⟩ := exists_pool? pooled'
    obtain ⟨s, there, -, i, -, block⟩ := sound.slice_of_lease member own
    obtain ⟨t, there', -, j, -, block'⟩ := sound.slice_of_lease member' own'
    obtain ⟨origin, -, -, -, localKey⟩ := Block.of_bare block
    obtain ⟨origin', -, -, -, localKey'⟩ := Block.of_bare block'
    rw [localKey, localKey', origin, origin']
    constructor
    · intro same
      rw [sound.memory.ledger.key_eq there there' same]
      rfl
    · intro same
      have number : s.extent.number = t.extent.number := by
        simp only [Segment.blockAt, Origin.segment.injEq] at same
        exact same.2
      rw [sound.memory.ledger.segment_eq there there' number]
      rfl

/-- Whatever callers do who keep to the contract, what they hold stays registered. -/
theorem run_covered {b : Backing} (unused : b.Unused) (acts : List Act) :
    ((start b).run acts).Covered :=
  (sound_run unused acts).covered

theorem copy_covered : shelf.Unused ∧
    ((start shelf).run
      [opening, .allocate 0 8 0 (some 0), .registerUser 0 64 32 none]).leases.length = 2 ∧
    ((start shelf).run [opening, .allocate 0 8 0 (some 0), .registerUser 0 64 32 none]).Covered :=
  ⟨unused_shelf, rfl, run_covered unused_shelf _⟩

end Tenancy

end RegisteredHeap
