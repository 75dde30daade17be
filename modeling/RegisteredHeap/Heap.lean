import RegisteredHeap.Pool
import RegisteredHeap.SizeClass

/-! # Heaps

A heap has a pool for each size class, node and device. A size picks the class, the caller the node
and possibly a device; the freed block finds its pool by itself. There are only heaps whose tables by
node have been made; what is said of heaps takes that for granted.
-/

namespace RegisteredHeap

structure Heap where
  /-- Number of the heap among those that share a backing. -/
  index : Nat
  config : Config
  tiny : List SizeClass
  exponential : List SizeClass
  /-- Classes of sizes above the largest configured one, made on demand. -/
  huge : List SizeClass := []
  /-- Host nodes. -/
  nodes : List Nat
  /-- Number of devices, if there is device support. -/
  devices : Option Nat
  pools : List Pool

namespace Heap

def retention (c : Config) : Retention := ⟨c.neverFree, c.reserveSegments⟩

/-- How many slots a table by node has: one more than the largest node, as a sum of words. -/
def slots (nodes : List Nat) : Nat := nodes.max?.elim 0 fun last => Word.wrap (last + 1)

/-- The tables cannot be made, and the program ends as it tries: they are larger than any layout, at
a word or more for each slot, or the sum for the slots is beyond the words in a build that checks
its sums. -/
def unbuildable (nodes : List Nat) : Bool :=
  nodes.max?.any fun last => Word.maxLayout < 8 * (last + 1)

/-- A slot for each number, with an entry where the number is a node. -/
def nodeTable {α : Type} (nodes : List Nat) (entry : Nat → α) : List (Option α) :=
  (List.range (slots nodes)).map fun node => if node ∈ nodes then some (entry node) else none

/-- The pools of a class on the host, by node. -/
def hostTable (index : Nat) (nodes : List Nat) (k : SizeClass) : List (Option PoolKey) :=
  nodeTable nodes fun node => ⟨index, k.blockSize, node, none⟩

/-- The pools of a class for devices, by node and device. The table is empty without device
support. -/
def deviceTable (index : Nat) (nodes : List Nat) (devices : Option Nat) (k : SizeClass) :
    List (Option (List PoolKey)) :=
  match devices with
  | none => []
  | some count =>
    nodeTable nodes fun node =>
      (List.range count).map fun device => ⟨index, k.blockSize, node, some device⟩

/-- The pools in the tables of a class. -/
def poolsOf (index : Nat) (keep : Retention) (nodes : List Nat) (devices : Option Nat)
    (k : SizeClass) : List Pool :=
  let host := (hostTable index nodes k).filterMap id
  let onDevices := ((deviceTable index nodes devices k).filterMap id).flatten
  (host ++ onDevices).map fun key =>
    { key, segmentSize := k.segmentSize, retention := keep }

def ofConfig (index : Nat) (c : Config) (nodes : List Nat) (devices : Option Nat) : Heap :=
  let nodes := nodes.eraseDups
  let tiny := c.tinyClasses
  let exponential := c.exponentialClasses
  { index, config := c, tiny, exponential, nodes, devices
    pools := (tiny ++ exponential).flatMap (poolsOf index (retention c) nodes devices) }

def numHuge (h : Heap) : Nat := h.huge.length

def stats (h : Heap) : Stats := .total (h.pools.map (·.stats))

/-- The class of a size that is rounded to a power of two, which is made if it is the first. -/
def hugeClass (h : Heap) (size : Nat) : Except HeapError SizeClass × Heap :=
  match Word.roundUp? size with
  | none => (.error (.invalidSize size), h)
  | some n =>
    let k : SizeClass := ⟨n, n⟩
    if k ∈ h.huge then (.ok k, h)
    else
      (.ok k,
        { h with
          huge := h.huge ++ [k]
          pools := h.pools ++ poolsOf h.index (retention h.config) h.nodes h.devices k })

/-- The class that serves a size. -/
def classOf (h : Heap) (size : Nat) : Except HeapError SizeClass × Heap :=
  let size := max size 1
  if size ≤ h.config.tinyLimit then
    match h.tiny[Config.tinyBucket size]? with
    | some k => (.ok k, h)
    | none => (.error (.invalidSize size), h)
  else if size ≤ h.config.maxSize then
    match h.exponential[h.config.exponentialBucket size]? with
    | some k => (.ok k, h)
    | none => (.error (.invalidSize size), h)
  else h.hugeClass size

/-- The pool of a class on a node, and on a device if one is asked for. A heap without slots is
taken for one without device support. -/
def keyOf (h : Heap) (k : SizeClass) (node : Nat) (device : Option Nat) :
    Except HeapError PoolKey :=
  match device with
  | none =>
    match (hostTable h.index h.nodes k)[node]?.join with
    | none => .error (.unknownNode node)
    | some key => .ok key
  | some d =>
    let table := deviceTable h.index h.nodes h.devices k
    if table.isEmpty then .error .deviceSupportDisabled
    else
      match table[node]?.join with
      | none => .error (.unknownNode node)
      | some keys =>
        match keys[d]? with
        | none => .error (.unknownDevice node d)
        | some key => .ok key

def pool? (h : Heap) (key : PoolKey) : Option Pool := h.pools.find? (·.key = key)

/-- Replaces the pool of the same key. -/
def setPool (h : Heap) (p : Pool) : Heap :=
  { h with pools := h.pools.map fun q => if q.key = p.key then p else q }

/-- A block from the pool of a key. -/
def allocateFrom (h : Heap) (key : PoolKey) (b : Backing) :
    Except HeapError Block × Heap × Backing :=
  match h.pool? key with
  | none => (.error (.unknownNode key.node), h, b)
  | some p =>
    let (r, p, b) := p.allocate b
    (r, h.setPool p, b)

/-- A block of at least `size` bytes on a node, with a copy on a device if one is given. -/
def allocate (h : Heap) (size node : Nat) (device : Option Nat) (b : Backing) :
    Except HeapError Block × Heap × Backing :=
  match h.classOf size with
  | (.error e, h) => (.error e, h, b)
  | (.ok k, h) =>
    match h.keyOf k node device with
    | .error e => (.error e, h, b)
    | .ok key => h.allocateFrom key b

/-- Puts a block back on the segment on an extent. -/
def giveBack (h : Heap) (key : PoolKey) (extent : Nat) (block : Block) (b : Backing) :
    Heap × Backing :=
  match h.pool? key with
  | none => (h, b)
  | some p =>
    let (p, b) := p.giveBack extent block b
    (h.setPool p, b)

/-- Registers memory of the caller. -/
def registerUser (h : Heap) (address size localNode : Nat) (device : Option Nat) (b : Backing) :
    Except HeapError Block × Backing :=
  match device, h.devices with
  | some _, none => (.error .deviceSupportDisabled, b)
  | some d, some count =>
    if count ≤ d then (.error (.unknownDevice localNode d), b) else enroll (some d)
  | none, _ => enroll none
where
  enroll (device : Option Nat) : Except HeapError Block × Backing :=
    match b.register (.user address) size .user device with
    | (.error e, b) => (.error e, b)
    | (.ok region, b) => (.ok (.ofUser region), b)

/-- The segment on an extent. -/
def segment? (h : Heap) (key : PoolKey) (extent : Nat) : Option Segment :=
  (h.pool? key).bind (Pool.segment? · extent)

/-- Gives back every segment. -/
def close (h : Heap) (b : Backing) : Heap × Backing :=
  ({ h with pools := h.pools.map Pool.emptied }, h.pools.foldl Pool.releaseAll b)

end Heap

end RegisteredHeap
