import RegisteredHeap.Segment
import RegisteredHeap.Proofs.Holding

/-! # Slicing a segment

What the blocks of a segment are, apart from the notes their holders leave in them, and what a
segment has of its backing. The blocks lie one after the other on the extent, so they share neither
an address nor a byte.
-/

namespace RegisteredHeap

namespace Block

/-- The block without the note of its holder. -/
def bare (b : Block) : Block := b.setMessageLength 0

@[simp] theorem bare_origin (b : Block) : b.bare.origin = b.origin := rfl

@[simp] theorem bare_address (b : Block) : b.bare.address = b.address := rfl

/-- The pool that the block was cut for. -/
def pool? (b : Block) : Option PoolKey :=
  match b.origin with
  | .segment key _ => some key
  | .user _ => none

/-- The registration of the block alone. -/
def region? (b : Block) : Option Region :=
  match b.origin with
  | .segment .. => none
  | .user region => some region

@[simp] theorem bare_pool? (b : Block) : b.bare.pool? = b.pool? := rfl

theorem pool?_eq_some {b : Block} {key : PoolKey} :
    b.pool? = some key ↔ ∃ n, b.origin = .segment key n := by
  unfold pool?
  cases b.origin with
  | segment key' n => simp
  | user r => simp

@[simp] theorem bare_region? (b : Block) : b.bare.region? = b.region? := rfl

end Block

def DeviceSide.inventory (d : DeviceSide) : Inventory := .ofMirror d.extent + .ofRegion d.region

/-- The copy on a device of a host extent of `len` bytes: as long, and registered as a whole. -/
structure DeviceSide.Fits (d : DeviceSide) (device len : Nat) : Prop where
  region : ∃ key, d.region = ⟨key, .device d.extent.number 0, len, .none, some device⟩
  device : d.extent.device = device
  size : d.extent.size = len

namespace Segment

def inventory (s : Segment) : Inventory :=
  .ofExtent s.extent + .ofRegion s.region + (s.device.map DeviceSide.inventory).getD 0

def origin (s : Segment) : Origin := .segment s.pool s.extent.number

/-- A segment of the pool `key`: an extent on its node that holds a block at least, registered as a
whole, with a copy on the device of the pool. -/
structure Formed (key : PoolKey) (s : Segment) : Prop where
  pool : s.pool = key
  node : s.extent.node = key.node
  capacity : s.capacity = s.extent.size / key.blockSize
  roomy : key.blockSize ≤ s.extent.size
  region : ∃ k, s.region = ⟨k, .host s.extent.number 0, s.extent.size, .none, none⟩
  single : key.device = none → s.device = none
  copied : ∀ d, key.device = some d → ∃ side, s.device = some side ∧ side.Fits d s.extent.size

/-- The deferred list holds blocks of the segment, and is counted. -/
structure Parked (s : Segment) : Prop where
  counted : s.numFreed = s.deferred.length
  own : ∀ b ∈ s.deferred, b.origin = s.origin

/-- The segment with one more block on its deferred list. -/
def park (s : Segment) (b : Block) : Segment :=
  { s with deferred := b :: s.deferred, numFreed := s.deferred.length + 1 }

/-- The blocks on the deferred list. -/
def parked (s : Segment) : Multiset Block := ↑(s.deferred.map Block.bare)

/-- All blocks of the segment. -/
def slices (s : Segment) : Multiset Block := ↑s.blocks

variable {s : Segment} {key : PoolKey} {b : Block}

theorem Formed.congr (formed : s.Formed key) (deferred : List Block) (numFreed : Int) :
    { s with deferred, numFreed }.Formed key :=
  ⟨formed.pool, formed.node, formed.capacity, formed.roomy, formed.region, formed.single,
    formed.copied⟩

theorem Formed.capacity_pos (formed : s.Formed key) (size : 0 < key.blockSize) :
    0 < s.capacity := by
  rw [formed.capacity]
  exact Nat.div_pos formed.roomy size

/-- A copy is as long as the extent. -/
theorem Formed.side_size {d : DeviceSide} (formed : s.Formed key) (there : s.device = some d) :
    d.extent.size = s.extent.size := by
  cases wanted : key.device with
  | none =>
      rw [formed.single wanted] at there
      cases there
  | some device =>
      obtain ⟨side, same, fits⟩ := formed.copied device wanted
      rw [there, Option.some.injEq] at same
      exact same ▸ fits.size

theorem mem_slices : b ∈ s.slices ↔ ∃ i < s.capacity, b = s.blockAt (i * s.pool.blockSize) := by
  simp only [slices, blocks, Multiset.mem_coe, List.mem_map, List.mem_range]
  constructor
  · rintro ⟨i, inside, rfl⟩
    exact ⟨i, inside, rfl⟩
  · rintro ⟨i, inside, rfl⟩
    exact ⟨i, inside, rfl⟩

theorem origin_of_mem_slices (member : b ∈ s.slices) : b.origin = s.origin := by
  obtain ⟨i, -, rfl⟩ := mem_slices.mp member
  rfl

theorem bare_of_mem_slices (member : b ∈ s.slices) : b.bare = b := by
  obtain ⟨i, -, rfl⟩ := mem_slices.mp member
  rfl

theorem bare_blocks (s : Segment) : s.blocks.map Block.bare = s.blocks := by
  conv_rhs => rw [← List.map_id s.blocks]
  apply List.map_congr_left
  intro b member
  exact bare_of_mem_slices (Multiset.mem_coe.mpr member)

@[simp] theorem card_slices (s : Segment) : s.slices.card = s.capacity := by
  simp [slices]

theorem blocks_eq_cons (some : 0 < s.capacity) : ∃ others, s.blocks = s.blockAt 0 :: others := by
  obtain ⟨n, capacity⟩ := Nat.exists_eq_add_one.mpr some
  refine ⟨((List.range n).map Nat.succ).map fun i => s.blockAt (i * s.pool.blockSize), ?_⟩
  rw [blocks, capacity, List.range_succ_eq_map, List.map_cons, Nat.zero_mul]

/-- The block at the start of the extent is the lowest. -/
theorem address_of_mem_blocks (member : b ∈ s.blocks) :
    ∃ n, b.address = (s.blockAt 0).address.advance n := by
  obtain ⟨i, -, rfl⟩ := mem_slices.mp (Multiset.mem_coe.mpr member)
  exact ⟨i * s.pool.blockSize, by simp only [blockAt, Address.advance, Nat.zero_add]⟩

/-- No two blocks of a segment start at one address. -/
theorem nodup_addresses (size : 0 < s.pool.blockSize) : (s.slices.map Block.address).Nodup := by
  simp only [slices, blocks, Multiset.map_coe, List.map_map, Multiset.coe_nodup]
  refine List.Nodup.map ?_ List.nodup_range
  intro i j same
  simp only [Function.comp_apply, blockAt, Address.host.injEq, true_and] at same
  exact Nat.eq_of_mul_eq_mul_right size same

theorem nodup_slices (size : 0 < s.pool.blockSize) : s.slices.Nodup :=
  (nodup_addresses size).of_map _

/-- Each block ends before the extent does. -/
theorem end_le_of_lt_capacity (formed : s.Formed key) {i : Nat} (inside : i < s.capacity) :
    i * key.blockSize + key.blockSize ≤ s.extent.size := by
  rw [formed.capacity] at inside
  calc
    i * key.blockSize + key.blockSize = (i + 1) * key.blockSize := by rw [Nat.succ_mul]
    _ ≤ s.extent.size / key.blockSize * key.blockSize := Nat.mul_le_mul_right _ inside
    _ ≤ s.extent.size := Nat.div_mul_le_self _ _

/-- Of two blocks at different places one ends before the other begins. -/
theorem slices_apart {i j size : Nat} (different : i ≠ j) :
    i * size + size ≤ j * size ∨ j * size + size ≤ i * size := by
  rcases Nat.lt_or_gt_of_ne different with less | more
  · left
    rw [← Nat.succ_mul]
    exact Nat.mul_le_mul_right _ less
  · right
    rw [← Nat.succ_mul]
    exact Nat.mul_le_mul_right _ more

/-- As long as there is room, a free adds the block and says whether it was the last. -/
theorem free_eq (parked : s.Parked) (room : s.deferred.length < s.capacity) (b : Block) :
    s.free b = (s.deferred.length + 1 == s.capacity, s.park b) := by
  have accepts : ¬ max s.capacity 1 ≤ s.deferred.length := by omega
  have last :
      ((s.deferred.length + 1 : Int) == s.capacity) = (s.deferred.length + 1 == s.capacity) :=
    Bool.eq_iff_iff.mpr (by simp only [beq_iff_eq]; omega)
  simp only [free, parked.counted, accepts, if_false, last, park]

theorem parked_park (s : Segment) (b : Block) : (s.park b).parked = b.bare ::ₘ s.parked := rfl

theorem Parked.park (parked : s.Parked) (own : b.origin = s.origin) : (s.park b).Parked where
  counted := rfl
  own := by
    intro c member
    rcases List.mem_cons.mp member with rfl | member
    · exact own
    · exact parked.own c member

theorem Parked.collect (parked : s.Parked) : s.collect.2.Parked where
  counted := by simp [Segment.collect, parked.counted]
  own := by simp [Segment.collect]

/-- Releasing a segment gives back all that it has. -/
theorem release_holds {backing : Backing} {rest : Inventory}
    (holds : backing.Holds (s.inventory + rest)) : (s.release backing).Holds rest := by
  cases there : s.device with
  | none =>
      simp only [inventory, there, Option.map_none, Option.getD_none, add_zero] at holds
      simp only [release, there]
      refine Backing.Holds.release (Backing.Holds.deregister ?_)
      convert holds using 1
      abel
  | some side =>
      simp only [inventory, there, Option.map_some, Option.getD_some, DeviceSide.inventory] at holds
      simp only [release, there]
      refine Backing.Holds.release (Backing.Holds.releaseDevice
        (Backing.Holds.deregister (Backing.Holds.deregister ?_)))
      convert holds using 1
      abel

end Segment

end RegisteredHeap
