import RegisteredHeap.Backing
import RegisteredHeap.Block

/-! # Segments

A registered extent cut into blocks of one size, possibly with a copy on a device. A freed block
waits on the deferred list of its segment until the pool collects it.
-/

namespace RegisteredHeap

/-- The copy of a segment on a device. -/
structure DeviceSide where
  extent : DeviceExtent
  region : Region
  deriving DecidableEq, Repr

structure Segment where
  pool : PoolKey
  extent : Extent
  region : Region
  device : Option DeviceSide
  /-- How many blocks the extent holds. -/
  capacity : Nat
  /-- Freed blocks not yet collected, the last one first. -/
  deferred : List Block := []
  /-- How many blocks wait on the deferred list, by a count of its own. -/
  numFreed : Int := 0
  deriving DecidableEq, Repr

namespace Segment

def ofExtent (pool : PoolKey) (extent : Extent) (region : Region) (device : Option DeviceSide) :
    Segment where
  pool := pool
  extent := extent
  region := region
  device := device
  capacity := extent.size / pool.blockSize

/-- The block at an offset, with fresh handles. -/
def blockAt (s : Segment) (offset : Nat) : Block where
  origin := .segment s.pool s.extent.number
  address := .host s.extent.number offset
  size := s.pool.blockSize
  handle := s.region.handle offset s.pool.blockSize
  copy := s.device.map fun d =>
    ⟨.device d.extent.number offset, d.region.handle offset s.pool.blockSize⟩

/-- The block that starts at an address, as far behind the start of the extent as the address. -/
def blockFrom (s : Segment) (a : Address) : Block := { s.blockAt a.offset with address := a }

/-- All blocks, lowest address first. -/
def blocks (s : Segment) : List Block :=
  (List.range s.capacity).map fun i => s.blockAt (i * s.pool.blockSize)

@[simp] theorem length_blocks (s : Segment) : s.blocks.length = s.capacity := by simp [blocks]

/-- Every block waits on the deferred list. -/
def isEmpty (s : Segment) : Bool := s.numFreed == s.capacity

/-- Puts a block on the deferred list, and says whether that made the segment empty. A list that
already holds every block of the segment takes no more. -/
def free (s : Segment) (b : Block) : Bool × Segment :=
  if max s.capacity 1 ≤ s.deferred.length then (false, s)
  else
    let s := { s with deferred := b :: s.deferred, numFreed := s.numFreed + 1 }
    (s.numFreed == s.capacity, s)

/-- Takes all blocks off the deferred list, in the order they were freed. -/
def collect (s : Segment) : List Block × Segment :=
  (s.deferred.reverse, { s with deferred := [], numFreed := s.numFreed - s.deferred.length })

/-- Gives everything back: the registrations before the memory, and the host's region first. -/
def release (s : Segment) (b : Backing) : Backing :=
  let b := b.deregister s.region
  let b := match s.device with
    | some d => (b.deregister d.region).releaseDevice d.extent
    | none => b
  b.release s.extent

end Segment

end RegisteredHeap
