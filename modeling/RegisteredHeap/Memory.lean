import RegisteredHeap.Heap
import RegisteredHeap.Layout

/-! # Memory

Heaps over one backing. Blocks are obtained from a heap by its number; a block that is freed finds
its heap by itself.
-/

namespace RegisteredHeap

structure Memory where
  backing : Backing
  heaps : List Heap

namespace Memory

/-- A heap for each configuration, with the nodes and the devices of the backing. -/
def ofConfigs (b : Backing) (configs : List Config) : Memory where
  backing := b
  heaps := configs.mapIdx fun i c => .ofConfig i c b.numa.nodes (b.device.map Device.count)

def log (m : Memory) (e : Event) : Memory := { m with backing := m.backing.log e }

/-- A block of at least `size` bytes from a heap, with a copy on a device if one is given. -/
def allocate (m : Memory) (heap size node : Nat) (device : Option Nat) :
    Except HeapError Block × Memory :=
  match m.heaps[heap]? with
  | none => (.error (.unknownNode node), m)
  | some h =>
    let (r, h, backing) := h.allocate size node device m.backing
    (r, { backing, heaps := m.heaps.set heap h })

/-- Blocks of one size until the count is reached or an allocation fails. -/
def allocateMany (m : Memory) (heap size node : Nat) (device : Option Nat) :
    Nat → List Block × Option HeapError × Memory
  | 0 => ([], none, m)
  | count + 1 =>
    match m.allocate heap size node device with
    | (.error e, m) => ([], some e, m)
    | (.ok block, m) =>
      let (blocks, failure, m) := m.allocateMany heap size node device count
      (block :: blocks, failure, m)

/-- Storage for `count` values of a layout. -/
def allocateArray (m : Memory) (heap : Nat) (l : Layout) (count node : Nat) :
    Except HeapError Block × Memory :=
  match l.array count with
  | .error e => (.error e, m)
  | .ok whole =>
    match whole.request m.backing.numa.pageSize with
    | .error e => (.error e, m)
    | .ok size => m.allocate heap size node none

/-- Registers memory of the caller, on a device if one is given. -/
def registerUser (m : Memory) (heap address size : Nat) (device : Option Nat) :
    Except HeapError Block × Memory :=
  match m.heaps[heap]? with
  | none => (.error .deviceSupportDisabled, m)
  | some h =>
    let (r, backing) := h.registerUser address size m.backing.numa.localNode device m.backing
    (r, { m with backing })

/-- Gives a block back: to its segment, or by dropping its registration. -/
def free (m : Memory) (block : Block) : Memory :=
  let m := m.log (.blockFreed block.address)
  match block.origin with
  | .user region => { m with backing := m.backing.deregister region }
  | .segment key extent =>
    match m.heaps[key.heap]? with
    | none => m
    | some h =>
      let (h, backing) := h.giveBack key extent block m.backing
      { backing, heaps := m.heaps.set key.heap h }

/-- The block of an erased handle, with keys fresh from its segment or its region. -/
def restore? (m : Memory) (e : ErasedBlock) : Option Block :=
  match e.origin with
  | .user region => some (.inRegion region e.address e.size)
  | .segment key extent =>
    match m.heaps[key.heap]? with
    | none => none
    | some h => (h.segment? key extent).map (Segment.blockFrom · e.address)

/-- Gives back the block of an erased handle. -/
def freeErased (m : Memory) (e : ErasedBlock) : Memory :=
  match m.restore? e with
  | some block => m.free block
  | none => m

/-- Gives back what the heaps hold, whatever is outstanding. -/
def close (m : Memory) : Memory :=
  let (heaps, backing) := m.heaps.foldl (fun (closed, b) h =>
    let (h, b) := h.close b
    (closed ++ [h], b)) ([], m.backing)
  { backing, heaps }

end Memory

end RegisteredHeap
