import RegisteredHeap.Proofs.Survey
import RegisteredHeap.Proofs.Tenancy

/-! # Conservation of blocks

Each block of each segment is at one place: ready in its pool, waiting on its segment, or with one
caller. So wherever the collaborators put their memory, what callers hold does not overlap.
-/

namespace RegisteredHeap

/-- Where extents start, on the host and on the devices, by their numbers. -/
structure Placement where
  host : Nat → Nat
  device : Nat → Nat

/-- Of `n` bytes from `a` on and `m` bytes from `b` on none is shared. -/
def Apart (a n b m : Nat) : Prop := a + n ≤ b ∨ b + m ≤ a

namespace Placement

def address (place : Placement) : Address → Nat
  | .host e o => place.host e + o
  | .device e o => place.device e + o
  | .user v => v

/-- No two extents in use overlap. -/
structure Fits (place : Placement) (b : Backing) : Prop where
  host : ∀ e ∈ b.numa.extents, ∀ e' ∈ b.numa.extents, e ≠ e' →
    Apart (place.host e.number) e.size (place.host e'.number) e'.size
  device : ∀ x ∈ b.mirrors, ∀ y ∈ b.mirrors, x ≠ y →
    Apart (place.device x.1) x.2 (place.device y.1) y.2

/-- The two blocks share no byte on the host, and none on a device. -/
structure Separates (place : Placement) (x y : Block) : Prop where
  host : Apart (place.address x.address) x.size (place.address y.address) y.size
  device : ∀ c ∈ x.copy, ∀ d ∈ y.copy,
    Apart (place.address c.address) x.size (place.address d.address) y.size

/-- The block lies in an extent that is in use. -/
def Contains (place : Placement) (b : Backing) (x : Block) : Prop :=
  ∃ e ∈ b.numa.extents, place.host e.number ≤ place.address x.address ∧
    place.address x.address + x.size ≤ place.host e.number + e.size

end Placement

theorem Apart.sub {a n b m i j k l : Nat} (apart : Apart a n b m) (left : i + k ≤ n)
    (right : j + l ≤ m) : Apart (a + i) k (b + j) l := by
  unfold Apart at *
  omega

variable {pools : List Pool} {closed : List Nat} {b : Backing} {out : Multiset Block} {p q : Pool}
  {s t : Segment} {x y : Block} {place : Placement}

namespace Ledger

theorem formed (ledger : Ledger pools closed b out) (there : s ∈ segmentsOf pools) :
    0 < s.pool.blockSize ∧ s.Formed s.pool ∧ ∃ p ∈ pools, s ∈ p.segments ∧ p.key = s.pool := by
  obtain ⟨p, listed, member⟩ := mem_segmentsOf.mp there
  have sound := ledger.sound p listed
  have formed := sound.formed s member
  rw [formed.pool]
  exact ⟨sound.size, formed, p, listed, member, rfl⟩

theorem eq_of_address (ledger : Ledger pools closed b out) (first : s ∈ segmentsOf pools)
    (second : t ∈ segmentsOf pools) (left : x ∈ s.slices) (right : y ∈ t.slices)
    (same : x.address = y.address) : x = y := by
  have number : s.extent.number = t.extent.number := by
    obtain ⟨i, -, rfl⟩ := Segment.mem_slices.mp left
    obtain ⟨j, -, rfl⟩ := Segment.mem_slices.mp right
    simp only [Segment.blockAt, Address.host.injEq] at same
    exact same.1
  have whole := ledger.segment_eq first second number
  subst whole
  have size := (ledger.formed first).1
  exact Multiset.inj_on_of_nodup_map (Segment.nodup_addresses size) x left y right same

/-- What is outstanding of a pool is a block of one of its segments. -/
theorem segment_of_out (ledger : Ledger pools closed b out) (member : x ∈ out) {key : PoolKey}
    (own : x.pool? = some key) :
    ∃ p ∈ pools, p.key = key ∧ key.heap ∉ closed ∧ ∃ s ∈ p.segments, x ∈ s.slices := by
  obtain ⟨p, listed, same, isOpen⟩ := ledger.pool_of_out member own
  have mine : x ∈ blocksOf out p.key := Multiset.mem_filter.mpr ⟨member, same ▸ own⟩
  obtain ⟨s, there, slice, -⟩ := (ledger.sound p listed).segment_of_out mine
  exact ⟨p, listed, same, isOpen, s, there, slice⟩

theorem mem_of_free (ledger : Ledger pools closed b out) (listed : p ∈ pools) (ready : x ∈ p.free) :
    ∃ s ∈ p.segments, x.bare ∈ s.slices := by
  apply Pool.mem_slices_iff.mp
  apply (ledger.sound p listed).mem_slices_of_stock
  exact Multiset.mem_add.mpr (.inl (Multiset.mem_coe.mpr (List.mem_map_of_mem ready)))

theorem mem_of_deferred (ledger : Ledger pools closed b out) (listed : p ∈ pools)
    (there : s ∈ p.segments) (waits : x ∈ s.deferred) : x.bare ∈ s.slices := by
  obtain ⟨_, kept⟩ := ledger.exists_kept listed
  rw [← kept.sound.share kept.distinct there]
  exact Multiset.mem_add.mpr (.inl (Multiset.mem_add.mpr
    (.inr (Multiset.mem_coe.mpr (List.mem_map_of_mem waits)))))

theorem eq_of_out_address (ledger : Ledger pools closed b out) (there : s ∈ segmentsOf pools)
    (slice : x ∈ s.slices) (member : y ∈ out) (same : y.address = x.address) : y = x := by
  rcases ledger.homes y member with ⟨p, -, own⟩ | ⟨r, rfl, -, v, base⟩
  · obtain ⟨q, listed, -, -, t, inside, slice'⟩ := ledger.segment_of_out member own
    exact ledger.eq_of_address (mem_segmentsOf.mpr ⟨q, listed, inside⟩) there slice' slice same
  · obtain ⟨i, -, rfl⟩ := Segment.mem_slices.mp slice
    cases same.symm.trans base

/-- The three places of a block, counted together. -/
theorem count_eq_one (ledger : Ledger pools closed b out) (listed : p ∈ pools)
    (there : s ∈ p.segments) (slice : x ∈ s.slices) :
    (p.free.map Block.bare).count x + (s.deferred.map Block.bare).count x + out.count x = 1 := by
  obtain ⟨_, kept⟩ := ledger.exists_kept listed
  have sound := kept.sound
  have origin := Segment.origin_of_mem_slices slice
  have pool := (sound.formed s there).pool
  have own : x.pool? = some p.key := by
    rw [Block.pool?, origin, ← pool]
    rfl
  have share := congrArg (Multiset.count x) (sound.share kept.distinct there)
  have mine {blocks : Multiset Block} :
      (blocks.filter fun b => b.origin = s.origin).count x = blocks.count x :=
    Multiset.count_filter_of_pos origin
  have pools : (blocksOf out p.key).count x = out.count x := Multiset.count_filter_of_pos own
  rw [Multiset.count_add, Multiset.count_add, mine, mine, pools, Segment.parked,
    Multiset.coe_count, Multiset.coe_count] at share
  rw [share]
  exact Multiset.count_eq_one_of_mem (Segment.nodup_slices (pool ▸ sound.size)) slice

/-- No block is outstanding twice. -/
theorem nodup_out (ledger : Ledger pools closed b out) : out.Nodup := by
  rw [Multiset.nodup_iff_count_le_one]
  intro x
  by_cases member : x ∈ out
  · rcases ledger.homes x member with ⟨p, -, own⟩ | ⟨r, rfl, -⟩
    · obtain ⟨p, listed, -, -, s, there, slice⟩ := ledger.segment_of_out member own
      have total := ledger.count_eq_one listed there slice
      omega
    · by_contra many
      have pair : Multiset.replicate 2 (Block.ofUser r) ≤ out :=
        Multiset.le_count_iff_replicate_le.mp (Nat.lt_of_not_le many)
      have regions : {r, r} ≤ regionsOf out := Multiset.filterMap_le_filterMap _ pair
      have keys := Multiset.nodup_of_le (Multiset.map_le_map regions) ledger.user_keys
      simp at keys
  · rw [Multiset.count_eq_zero_of_notMem member]
    exact Nat.zero_le 1

theorem contains (ledger : Ledger pools closed b out) (there : s ∈ segmentsOf pools)
    (slice : x ∈ s.slices) : place.Contains b x := by
  obtain ⟨-, formed, -⟩ := ledger.formed there
  obtain ⟨i, inside, rfl⟩ := Segment.mem_slices.mp slice
  have bound := Segment.end_le_of_lt_capacity formed inside
  refine ⟨s.extent, ledger.mem_extents there, Nat.le_add_right _ _, ?_⟩
  simp only [Segment.blockAt, Placement.address]
  omega

/-- Two blocks of one segment lie beside each other, on the host and on the device. -/
theorem separates_of_segment {i j : Nat} (different : i ≠ j) :
    place.Separates (s.blockAt (i * s.pool.blockSize)) (s.blockAt (j * s.pool.blockSize)) := by
  have apart : i * s.pool.blockSize + s.pool.blockSize ≤ j * s.pool.blockSize ∨
      j * s.pool.blockSize + s.pool.blockSize ≤ i * s.pool.blockSize :=
    Segment.slices_apart different
  constructor
  · simp only [Segment.blockAt, Placement.address, Apart]
    omega
  · intro c left d right
    obtain ⟨side, known, rfl⟩ := Option.mem_map.mp left
    obtain ⟨side', known', rfl⟩ := Option.mem_map.mp right
    rw [Option.mem_def.mp known, Option.mem_def, Option.some.injEq] at known'
    subst known'
    simp only [Segment.blockAt, Placement.address, Apart]
    omega

theorem separates (ledger : Ledger pools closed b out) (fits : place.Fits b)
    (first : s ∈ segmentsOf pools) (second : t ∈ segmentsOf pools) (left : x ∈ s.slices)
    (right : y ∈ t.slices) (different : x ≠ y) : place.Separates x y := by
  obtain ⟨-, formed, -⟩ := ledger.formed first
  obtain ⟨-, formed', -⟩ := ledger.formed second
  obtain ⟨i, inside, rfl⟩ := Segment.mem_slices.mp left
  obtain ⟨j, inside', rfl⟩ := Segment.mem_slices.mp right
  by_cases same : s = t
  · subst same
    apply separates_of_segment
    rintro rfl
    exact different rfl
  have bound := Segment.end_le_of_lt_capacity formed inside
  have bound' := Segment.end_le_of_lt_capacity formed' inside'
  constructor
  · have extents : s.extent ≠ t.extent := by
      intro equal
      exact same (ledger.segment_eq first second (congrArg Extent.number equal))
    have hosts :=
      fits.host s.extent (ledger.mem_extents first) t.extent (ledger.mem_extents second) extents
    exact hosts.sub bound bound'
  · intro c left d right
    obtain ⟨side, known, rfl⟩ := Option.mem_map.mp left
    obtain ⟨side', known', rfl⟩ := Option.mem_map.mp right
    have numbers : side.extent.number ≠ side'.extent.number := by
      intro equal
      exact same (ledger.segment_eq_of_side first second known known' equal)
    have devices := fits.device _ (ledger.mem_mirrors first known) _
      (ledger.mem_mirrors second known') fun equal => numbers (congrArg Prod.fst equal)
    exact devices.sub (formed.side_size known ▸ bound) (formed'.side_size known' ▸ bound')

/-- Whatever tells a block from all others in a list, counting it counts the block. -/
theorem countP_eq_count {α : Type} {entries : List α} {block : α → Block} {tells : α → Bool}
    (only : ∀ a ∈ entries, tells a = true ↔ (block a).bare = x) :
    entries.countP tells = (entries.map fun a => (block a).bare).count x := by
  rw [List.count, List.countP_map]
  apply List.countP_congr
  intro a member
  simp only [Function.comp_apply, beq_iff_eq]
  exact only a member

theorem address_iff (only : y.address = x.address → y.bare = x) :
    decide (y.address = x.address) = true ↔ y.bare = x := by
  rw [decide_eq_true_eq]
  constructor
  · exact only
  · rintro rfl
    rfl

end Ledger

namespace Tenancy

variable {w : Tenancy} {act : Act} {m : Memory} {l : Lease}

/-- The blocks of segments are conserved. -/
structure Conserved (w : Tenancy) : Prop where
  /-- A block of a segment is ready in its pool, waits on the segment, or is held by one caller. -/
  once : ∀ p ∈ w.memory.pools, ∀ s ∈ p.segments, ∀ x ∈ s.blocks,
    p.free.countP (fun y => y.address = x.address) +
      s.deferred.countP (fun y => y.address = x.address) +
      w.leases.countP (fun l => l.grip.block.address = x.address) = 1
  distinct : ((segmentsOf w.memory.pools).map fun s => s.extent.number).Nodup
  /-- All that is ready, waits or is held is of a segment that is there. -/
  ready : ∀ p ∈ w.memory.pools, ∀ x ∈ p.free, ∃ s ∈ p.segments, x.bare ∈ s.blocks
  waiting : ∀ p ∈ w.memory.pools, ∀ s ∈ p.segments, ∀ x ∈ s.deferred, x.bare ∈ s.blocks
  held : ∀ l ∈ w.leases, l.grip.block.isUser = false →
    ∃ p ∈ w.memory.pools, p.key.heap = l.heap ∧ ∃ s ∈ p.segments, l.grip.block.bare ∈ s.blocks
  within : ∀ place : Placement, ∀ l ∈ w.leases, l.grip.block.isUser = false →
    place.Contains w.memory.backing l.grip.block
  /-- As long as extents do not overlap, blocks do not. -/
  apart : ∀ place : Placement, place.Fits w.memory.backing → w.leases.Pairwise fun l l' =>
    l.grip.block.isUser = false → l'.grip.block.isUser = false →
      place.Separates l.grip.block l'.grip.block
  /-- A block that is given back always finds room on the deferred list of its segment. -/
  accepted : ∀ act m x key n, w.Frees act m x → x.origin = .segment key n →
    ∃ p ∈ m.pools, p.key = key ∧ ∃ s ∈ p.segments, s.extent.number = n ∧
      s.free x = (s.deferred.length + 1 == s.capacity, s.park x)

theorem bare_mem_blocks (member : l ∈ w.leases) : l.grip.block.bare ∈ w.blocks :=
  Multiset.mem_coe.mpr (List.mem_map_of_mem member)

theorem exists_pool? (pooled : x.isUser = false) : ∃ key, x.pool? = some key := by
  unfold Block.isUser at pooled
  split at pooled
  · cases pooled
  · rename_i key n origin
    exact ⟨key, by rw [Block.pool?, origin]⟩

theorem Sound.segment_of_lease (sound : w.Sound) (member : l ∈ w.leases)
    (pooled : l.grip.block.isUser = false) :
    ∃ p ∈ w.memory.pools, l.grip.block.pool? = some p.key ∧ p.key.heap = l.heap ∧
      ∃ s ∈ p.segments, l.grip.block.bare ∈ s.slices := by
  obtain ⟨key, own⟩ := exists_pool? pooled
  obtain ⟨p, listed, same, -, s, there, slice⟩ :=
    sound.memory.ledger.segment_of_out (bare_mem_blocks member) own
  exact ⟨p, listed, same ▸ own, same ▸ sound.issuers l member key own, s, there, slice⟩

/-- Places of a block are told by its address, since no other block has it. -/
theorem Sound.once (sound : w.Sound) (listed : p ∈ w.memory.pools) (there : s ∈ p.segments)
    (slice : x ∈ s.blocks) :
    p.free.countP (fun y => y.address = x.address) +
      s.deferred.countP (fun y => y.address = x.address) +
      w.leases.countP (fun l => l.grip.block.address = x.address) = 1 := by
  have ledger := sound.memory.ledger
  have known : s ∈ segmentsOf w.memory.pools := mem_segmentsOf.mpr ⟨p, listed, there⟩
  have total := ledger.count_eq_one listed there (Multiset.mem_coe.mpr slice)
  have ready : ∀ y ∈ p.free, y.address = x.address → y.bare = x := by
    intro y ready same
    obtain ⟨t, inside, slice'⟩ := ledger.mem_of_free listed ready
    exact ledger.eq_of_address (mem_segmentsOf.mpr ⟨p, listed, inside⟩) known slice' slice same
  have waiting : ∀ y ∈ s.deferred, y.address = x.address → y.bare = x := by
    intro y waits same
    exact ledger.eq_of_address known known (ledger.mem_of_deferred listed there waits) slice same
  have held : ∀ l ∈ w.leases, l.grip.block.address = x.address → l.grip.block.bare = x := by
    intro l member same
    exact ledger.eq_of_out_address known slice (bare_mem_blocks member) same
  rw [Ledger.countP_eq_count fun y member => Ledger.address_iff (ready y member),
    Ledger.countP_eq_count fun y member => Ledger.address_iff (waiting y member),
    Ledger.countP_eq_count fun l member => Ledger.address_iff (held l member)]
  rwa [Tenancy.blocks, Multiset.coe_count] at total

theorem Sound.accepted {key : PoolKey} {n : Nat} (sound : w.Sound) (frees : w.Frees act m x)
    (origin : x.origin = .segment key n) :
    ∃ p ∈ m.pools, p.key = key ∧ ∃ s ∈ p.segments, s.extent.number = n ∧
      s.free x = (s.deferred.length + 1 == s.capacity, s.park x) := by
  obtain ⟨out, memory⟩ := sound.frees frees
  have own : x.bare.pool? = some key := Block.pool?_eq_some.mpr ⟨n, origin⟩
  obtain ⟨p, listed, rfl, -⟩ := memory.ledger.pool_of_out (Multiset.mem_cons_self _ _) own
  obtain ⟨_, kept⟩ := memory.ledger.exists_kept_cons listed own
  obtain ⟨_, s, _, parts, -, -, number, -, room⟩ := kept.sound.segment?_eq kept.distinct origin
  have there : s ∈ p.segments := parts ▸ List.mem_append_cons_self
  exact ⟨p, listed, rfl, s, there, number, Segment.free_eq (kept.sound.parked s there) room x⟩

theorem Sound.conserved (sound : w.Sound) : w.Conserved where
  once _ listed _ there _ slice := sound.once listed there slice
  distinct := sound.memory.ledger.numbers
  ready p listed x ready := sound.memory.ledger.mem_of_free listed ready
  waiting p listed s there x waits := sound.memory.ledger.mem_of_deferred listed there waits
  held := by
    intro l member pooled
    obtain ⟨p, listed, -, heap, s, there, slice⟩ := sound.segment_of_lease member pooled
    exact ⟨p, listed, heap, s, there, slice⟩
  within := by
    intro place l member pooled
    obtain ⟨p, listed, -, -, s, there, slice⟩ := sound.segment_of_lease member pooled
    have inside : place.Contains w.memory.backing l.grip.block.bare :=
      sound.memory.ledger.contains (mem_segmentsOf.mpr ⟨p, listed, there⟩) slice
    exact inside
  apart := by
    intro place fits
    have distinct := Multiset.coe_nodup.mp sound.memory.ledger.nodup_out
    refine (List.pairwise_map.mp distinct).imp_of_mem ?_
    intro l l' member member' different pooled pooled'
    obtain ⟨p, listed, -, -, s, there, slice⟩ := sound.segment_of_lease member pooled
    obtain ⟨q, listed', -, -, t, there', slice'⟩ := sound.segment_of_lease member' pooled'
    have apart := sound.memory.ledger.separates fits (mem_segmentsOf.mpr ⟨p, listed, there⟩)
      (mem_segmentsOf.mpr ⟨q, listed', there'⟩) slice slice' different
    exact ⟨apart.host, apart.device⟩
  accepted _ _ _ _ _ frees origin := sound.accepted frees origin

/-- Whatever callers do who keep to the contract, no block is lost, and none is given out twice. -/
theorem run_conserved {b : Backing} (unused : b.Unused) (acts : List Act) :
    ((start b).run acts).Conserved :=
  (sound_run unused acts).conserved

theorem pair_conserved : shelf.Unused ∧
    ((start shelf).run [opening, .allocate 0 8 0 none, .allocate 0 8 0 none]).leases.length = 2 ∧
    ((start shelf).run [opening, .allocate 0 8 0 none, .allocate 0 8 0 none]).Conserved :=
  ⟨unused_shelf, rfl, run_conserved unused_shelf _⟩

end Tenancy

end RegisteredHeap
