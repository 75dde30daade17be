import RegisteredHeap.Proofs.Coverage

/-! # Accounting

Extents, registrations, device bytes and the counters of the heaps are kept by four parties, and
agree after every call: all of them follow from the segments that are there and what users hold.
-/

namespace RegisteredHeap

theorem Stats.total_eq (f : Stats → Nat) (zero : f {} = 0)
    (adds : ∀ a b, f (Stats.add a b) = f a + f b) (all : List Stats) :
    f (Stats.total all) = (all.map f).sum := by
  have folded (all : List Stats) : ∀ s, f (all.foldl Stats.add s) = f s + (all.map f).sum := by
    induction all with
    | nil => simp
    | cons a all ih =>
        intro s
        rw [List.foldl_cons, ih, adds, List.map_cons, List.sum_cons, Nat.add_assoc]
  rw [Stats.total, folded, zero, Nat.zero_add]

theorem Heap.stats_liveSegments (h : Heap) :
    h.stats.liveSegments = (h.pools.map fun p => p.segments.length).sum := by
  rw [Heap.stats, Stats.total_eq Stats.liveSegments rfl (fun _ _ => rfl), List.map_map]
  rfl

theorem Heap.stats_created (h : Heap) :
    h.stats.created = (h.pools.map fun p => p.counters.created).sum := by
  rw [Heap.stats, Stats.total_eq Stats.created rfl (fun _ _ => rfl), List.map_map]
  rfl

theorem Heap.stats_released (h : Heap) :
    h.stats.released = (h.pools.map fun p => p.counters.released).sum := by
  rw [Heap.stats, Stats.total_eq Stats.released rfl (fun _ _ => rfl), List.map_map]
  rfl

/-- The counters of a heap agree when those of its pools do. -/
theorem Heap.stats_balanced {h : Heap} (counted : ∀ p ∈ h.pools, p.Counted) :
    h.stats.created = h.stats.liveSegments + h.stats.released := by
  rw [h.stats_created, h.stats_liveSegments, h.stats_released]
  generalize h.pools = pools at counted
  induction pools with
  | nil => rfl
  | cons p pools ih =>
      have first := counted p List.mem_cons_self
      have others := ih fun q member => counted q (List.mem_cons_of_mem _ member)
      rw [Pool.Counted] at first
      simp only [List.map_cons, List.sum_cons]
      omega

/-- The segments without a copy. -/
def hostSegments (pools : List Pool) : List Segment :=
  segmentsOf (pools.filter fun p => p.key.device.isNone)

/-- The segments with a copy on a device. -/
def deviceSegments (pools : List Pool) : List Segment :=
  segmentsOf (pools.filter fun p => p.key.device.isSome)

variable {pools : List Pool} {closed : List Nat} {b : Backing} {out : Multiset Block} {p : Pool}

theorem segmentsOf_cons (p : Pool) (pools : List Pool) :
    segmentsOf (p :: pools) = p.segments ++ segmentsOf pools := List.flatMap_cons

theorem sidesOf_append (left right : List Segment) :
    sidesOf (left ++ right) = sidesOf left ++ sidesOf right := List.filterMap_append

theorem length_segmentsOf (pools : List Pool) :
    (segmentsOf pools).length = (hostSegments pools).length + (deviceSegments pools).length := by
  induction pools with
  | nil => rfl
  | cons p pools ih =>
      simp only [hostSegments, deviceSegments] at ih ⊢
      cases wanted : p.key.device with
      | none => simp [segmentsOf_cons, wanted, ih, Nat.add_assoc]
      | some d => simp [segmentsOf_cons, wanted, ih]; omega

/-- The copies on devices are those of the device segments, and as long. -/
theorem sizes_sidesOf (formed : ∀ p ∈ pools, ∀ s ∈ p.segments, s.Formed p.key) :
    (sidesOf (segmentsOf pools)).map (fun d => d.extent.size) =
      (deviceSegments pools).map fun s => s.extent.size := by
  induction pools with
  | nil => rfl
  | cons p pools ih =>
      have others := ih fun q member => formed q (List.mem_cons_of_mem _ member)
      have mine := formed p List.mem_cons_self
      simp only [deviceSegments] at others ⊢
      rw [segmentsOf_cons, sidesOf_append, List.map_append, others]
      cases wanted : p.key.device with
      | none =>
          have none : sidesOf p.segments = [] := by
            rw [sidesOf, List.filterMap_eq_nil_iff]
            exact fun s member => (mine s member).single wanted
          simp [wanted, none]
      | some d =>
          have own : (sidesOf p.segments).map (fun d => d.extent.size) =
              p.segments.map fun s => s.extent.size := by
            rw [sidesOf, List.map_filterMap, ← List.filterMap_eq_map]
            apply List.filterMap_congr
            intro s member
            obtain ⟨side, known, fits⟩ := (mine s member).copied d wanted
            rw [known, Option.map_some, fits.size]
            rfl
          simp [segmentsOf_cons, wanted, own]

namespace Ledger

theorem all_formed (ledger : Ledger pools closed b out) :
    ∀ p ∈ pools, ∀ s ∈ p.segments, s.Formed p.key :=
  fun p listed => (ledger.sound p listed).formed

theorem live_extents (ledger : Ledger pools closed b out) :
    b.numa.live.length = (segmentsOf pools).length := by
  have counts := congrArg Multiset.card ledger.extents
  simpa only [Numa.extents, Multiset.coe_card, List.length_map] using counts

theorem live_regions (ledger : Ledger pools closed b out) :
    b.registrar.live =
      (hostSegments pools).length + 2 * (deviceSegments pools).length + (regionsOf out).card := by
  have balance := ledger.holds.orderly.balance
  have sides := congrArg List.length (sizes_sidesOf ledger.all_formed)
  rw [ledger.regions] at balance
  simp only [Multiset.card_add, Multiset.coe_card, List.length_map, length_segmentsOf]
    at balance sides
  rw [Registrar.live]
  omega

/-- No device extent is empty, so each counts with its size. -/
theorem live_bytes (ledger : Ledger pools closed b out) {d : Device} (there : b.device = some d) :
    d.liveBytes = ((deviceSegments pools).map fun s => s.extent.size).sum := by
  have mirrors := ledger.mirrors
  simp only [Backing.mirrors, there, Option.map_some, Option.getD_some, Device.extents] at mirrors
  have bytes := congrArg (fun m => (m.map fun x : Nat × Nat => max x.2 1).sum) mirrors
  simp only [Multiset.map_coe, Multiset.sum_coe, List.map_map] at bytes
  have sizes : (sidesOf (segmentsOf pools)).map ((fun x : Nat × Nat => max x.2 1) ∘
      fun d => (d.extent.number, d.extent.size)) =
      (sidesOf (segmentsOf pools)).map fun d => d.extent.size := by
    apply List.map_congr_left
    intro d member
    obtain ⟨s, listed, known⟩ := mem_sidesOf.mp member
    obtain ⟨size, formed, -⟩ := ledger.formed listed
    have positive : 0 < d.extent.size := by
      rw [formed.side_size known]
      exact size.trans_le formed.roomy
    exact Nat.max_eq_left positive
  rw [(ledger.holds.orderly.device d there).bytes, ← sizes_sidesOf ledger.all_formed, ← sizes]
  exact bytes

end Ledger

namespace Tenancy

variable {w : Tenancy}

/-- What the four parties count agrees. -/
structure Accounted (w : Tenancy) : Prop where
  extents : w.memory.backing.numa.live.length =
    (w.memory.heaps.map fun h => h.stats.liveSegments).sum
  regions : w.memory.backing.registrar.live = (hostSegments w.memory.pools).length +
    2 * (deviceSegments w.memory.pools).length + w.leases.countP (fun l => l.grip.block.isUser)
  bytes : ∀ d, w.memory.backing.device = some d →
    d.liveBytes = ((deviceSegments w.memory.pools).map fun s => s.extent.size).sum
  counted : ∀ (i : Nat) (h : Heap), w.memory.heaps[i]? = some h → i ∉ w.closed →
    h.stats.created = h.stats.liveSegments + h.stats.released
  /-- A heap that was closed has no segments, whatever was outstanding. -/
  gone : ∀ p ∈ w.memory.pools, p.key.heap ∈ w.closed → p.segments = []
  /-- Nothing is registered but the segments that are there, and what users have not given back. -/
  remaining : ∀ r, r ∈ w.memory.backing.regions ↔
    (∃ p ∈ w.memory.pools, p.key.heap ∉ w.closed ∧ ∃ s ∈ p.segments,
      r = s.region ∨ ∃ d, s.device = some d ∧ r = d.region) ∨
    ∃ l ∈ w.leases, l.grip.block.origin = .user r

theorem card_users (w : Tenancy) :
    (regionsOf w.blocks).card = w.leases.countP fun l => l.grip.block.isUser := by
  rw [regionsOf, Tenancy.blocks, Multiset.filterMap_coe, Multiset.coe_card,
    List.length_filterMap_eq_countP, List.countP_map]
  apply List.countP_congr
  intro l _
  rw [Function.comp_apply, Block.bare_region?]
  cases origin : l.grip.block.origin <;> simp [Block.region?, Block.isUser, origin]

theorem mem_users {r : Region} :
    r ∈ regionsOf w.blocks ↔ ∃ l ∈ w.leases, l.grip.block.origin = .user r := by
  have named (x : Block) : x.region? = some r ↔ x.origin = .user r := by
    unfold Block.region?
    split
    · simp_all
    · simp_all
  rw [regionsOf, Multiset.mem_filterMap]
  constructor
  · rintro ⟨x, inside, region⟩
    obtain ⟨l, member, rfl⟩ := List.mem_map.mp (Multiset.mem_coe.mp inside)
    exact ⟨l, member, (named _).mp region⟩
  · rintro ⟨l, member, origin⟩
    exact ⟨l.grip.block.bare, bare_mem_blocks member, (named _).mpr origin⟩

theorem length_segments (m : Memory) :
    (segmentsOf m.pools).length = (m.heaps.map fun h => h.stats.liveSegments).sum := by
  rw [Memory.pools]
  induction m.heaps with
  | nil => rfl
  | cons h heaps ih =>
      rw [List.flatMap_cons, List.map_cons, List.sum_cons, ← ih, h.stats_liveSegments]
      simp only [segmentsOf, List.flatMap_append, List.length_append, List.length_flatMap]

theorem Sound.remaining {r : Region} (sound : w.Sound) : r ∈ w.memory.backing.regions ↔
    (∃ p ∈ w.memory.pools, p.key.heap ∉ w.closed ∧ ∃ s ∈ p.segments,
      r = s.region ∨ ∃ d, s.device = some d ∧ r = d.region) ∨
    ∃ l ∈ w.leases, l.grip.block.origin = .user r := by
  have ledger := sound.memory.ledger
  have isOpen {p : Pool} {s : Segment} (listed : p ∈ w.memory.pools) (there : s ∈ p.segments) :
      p.key.heap ∉ w.closed := by
    intro isClosed
    rw [(ledger.closed p listed isClosed).1] at there
    cases there
  rw [← mem_users]
  constructor
  · intro member
    rw [ledger.regions, Multiset.mem_add, Multiset.mem_add] at member
    rcases member with (host | side) | user
    · obtain ⟨s, there, rfl⟩ := List.mem_map.mp (Multiset.mem_coe.mp host)
      obtain ⟨p, listed, inside⟩ := mem_segmentsOf.mp there
      exact .inl ⟨p, listed, isOpen listed inside, s, inside, .inl rfl⟩
    · obtain ⟨d, there, rfl⟩ := List.mem_map.mp (Multiset.mem_coe.mp side)
      obtain ⟨s, inside, known⟩ := mem_sidesOf.mp there
      obtain ⟨p, listed, inside⟩ := mem_segmentsOf.mp inside
      exact .inl ⟨p, listed, isOpen listed inside, s, inside, .inr ⟨d, known, rfl⟩⟩
    · exact .inr user
  · rintro (⟨p, listed, -, s, there, rfl | ⟨d, known, rfl⟩⟩ | user)
    · exact ledger.mem_regions (mem_segmentsOf.mpr ⟨p, listed, there⟩)
    · exact ledger.mem_regions_side (mem_segmentsOf.mpr ⟨p, listed, there⟩) known
    · rw [ledger.regions]
      exact Multiset.mem_add.mpr (.inr user)

theorem Sound.accounted (sound : w.Sound) : w.Accounted where
  extents := by
    rw [sound.memory.ledger.live_extents, length_segments]
  regions := by
    rw [sound.memory.ledger.live_regions, card_users]
  bytes d there := sound.memory.ledger.live_bytes there
  counted := by
    intro i h there isOpen
    apply Heap.stats_balanced
    intro p member
    have own := ((sound.memory.formed i h there).of_mem member).1
    have listed : p ∈ w.memory.pools :=
      List.mem_flatMap.mpr ⟨h, List.mem_of_getElem? there, member⟩
    exact sound.memory.ledger.counted p listed (own ▸ isOpen)
  gone p listed isClosed := (sound.memory.ledger.closed p listed isClosed).1
  remaining _ := sound.remaining

/-- Whatever callers do who keep to the contract, and wherever a call fails, the counts agree. -/
theorem run_accounted {b : Backing} (unused : b.Unused) (acts : List Act) :
    ((start b).run acts).Accounted :=
  (sound_run unused acts).accounted

/-- Of three registrations the one that a user asked for outlives the heap. -/
theorem closed_accounted : shelf.Unused ∧
    ((start shelf).run [opening, .allocate 0 8 0 (some 0),
      .registerUser 0 64 32 none]).memory.backing.registrar.live = 3 ∧
    ((start shelf).run [opening, .allocate 0 8 0 (some 0), .registerUser 0 64 32 none,
      .closeHeap 0]).memory.backing.registrar.live = 1 ∧
    ((start shelf).run [opening, .allocate 0 8 0 (some 0), .registerUser 0 64 32 none,
      .closeHeap 0]).Accounted :=
  ⟨unused_shelf, rfl, rfl, run_accounted unused_shelf _⟩

end Tenancy

end RegisteredHeap
