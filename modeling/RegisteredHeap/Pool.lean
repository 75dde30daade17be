import RegisteredHeap.Segment
import RegisteredHeap.Stats

/-! # Pools

Blocks of one size on one node. Allocation pops the free list; when it is empty the pool first
collects the deferred lists of its segments, and takes a new segment only if they were empty too.
-/

namespace RegisteredHeap

/-- When segments that became empty are given back. -/
structure Retention where
  neverFree : Bool
  /-- How many segments a pool keeps in any case. -/
  reserve : Nat
  deriving DecidableEq, Repr

structure Pool where
  key : PoolKey
  segmentSize : Nat
  retention : Retention
  /-- The next block to hand out first. -/
  free : List Block := []
  segments : List Segment := []
  counters : PoolCounters := {}

namespace Pool

def record (p : Pool) (e : PoolEvent) : Pool := { p with counters := p.counters.record e }

def stats (p : Pool) : Stats := p.counters.snapshot p.segments.length

/-- Moves every deferred block to the end of the free list, segment by segment. -/
def collect (p : Pool) : Pool :=
  let parts := p.segments.map Segment.collect
  let blocks := parts.flatMap Prod.fst
  { p with free := p.free ++ blocks, segments := parts.map Prod.snd }.record
    (.collection blocks.length)

/-- The copy on a device of a segment of `len` bytes, if the pool is for a device. What was obtained
before a failure is given back. -/
def obtainDeviceSide (p : Pool) (len : Nat) (b : Backing) :
    Except HeapError (Option DeviceSide) × Backing :=
  match p.key.device with
  | none => (.ok none, b)
  | some device =>
    match b.obtainDevice len device with
    | (.error e, b) => (.error e, b)
    | (.ok extent, b) =>
      match b.register (.device extent.number 0) len .none (some device) with
      | (.error e, b) => (.error e, b.releaseDevice extent)
      | (.ok region, b) => (.ok (some ⟨extent, region⟩), b)

/-- A segment on an extent that was obtained for the pool: on the right node, long enough for at least
one block, registered, with its copy on the device. What was obtained before a failure is given
back, the extent included. -/
def furnish (p : Pool) (extent : Extent) (b : Backing) : Except HeapError Segment × Backing :=
  if extent.node ≠ p.key.node then
    (.error (.wrongNode p.key.node extent.node), b.release extent)
  else if extent.size < p.key.blockSize then
    (.error (.invalidSize p.key.blockSize), b.release extent)
  else
    match b.register (.host extent.number 0) extent.size .none none with
    | (.error e, b) => (.error e, b.release extent)
    | (.ok region, b) =>
      match p.obtainDeviceSide extent.size b with
      | (.error e, b) => (.error e, (b.deregister region).release extent)
      | (.ok device, b) => (.ok (.ofExtent p.key extent region device), b)

/-- A new segment, on an extent of the size that segments of the pool have. -/
def obtainSegment (p : Pool) (b : Backing) : Except HeapError Segment × Backing :=
  match b.obtain p.segmentSize p.key.node with
  | (.error e, b) => (.error e, b)
  | (.ok extent, b) => p.furnish extent b

/-- Adds a segment and its blocks. -/
def addSegment (p : Pool) (s : Segment) : Pool :=
  { p with free := p.free ++ s.blocks, segments := p.segments ++ [s] }.record .segmentCreated

/-- Takes a new segment and its first block. -/
def grow (p : Pool) (b : Backing) : Except HeapError Block × Pool × Backing :=
  match p.obtainSegment b with
  | (.error e, b) => (.error e, p, b)
  | (.ok s, b) =>
    let p := p.addSegment s
    match p.free with
    | block :: rest => (.ok block, { p with free := rest }, b)
    | [] => (.error (.invalidSize p.key.blockSize), p, b)

/-- Allocation with an empty free list. -/
def allocateSlow (p : Pool) (b : Backing) : Except HeapError Block × Pool × Backing :=
  let p := (p.record .slowPath).collect
  match p.free with
  | block :: rest => (.ok block, { p with free := rest }, b)
  | [] => p.grow b

def allocate (p : Pool) (b : Backing) : Except HeapError Block × Pool × Backing :=
  match p.free with
  | block :: rest => (.ok block, { p with free := rest }, b)
  | [] => p.allocateSlow b

def segment? (p : Pool) (extent : Nat) : Option Segment :=
  p.segments.find? (·.extent.number == extent)

/-- Replaces the segment on the same extent. -/
def setSegment (p : Pool) (s : Segment) : Pool :=
  { p with
    segments := p.segments.map fun t => if t.extent.number = s.extent.number then s else t }

def removeSegment (p : Pool) (s : Segment) : Pool :=
  { p with segments := p.segments.filter (·.extent.number != s.extent.number) }.record
    .segmentReleased

/-- Segments that became empty are given back, unless the pool would fall below its reserve. -/
def letsGo (p : Pool) : Bool :=
  !p.retention.neverFree && decide (p.retention.reserve < p.segments.length)

/-- Puts a block back on its segment, and gives the segment back if this made it empty. -/
def giveBack (p : Pool) (extent : Nat) (block : Block) (b : Backing) : Pool × Backing :=
  match p.segment? extent with
  | none => (p, b)
  | some s =>
    let (emptied, s) := s.free block
    let p := p.setSegment s
    if emptied && p.letsGo then (p.removeSegment s, s.release b) else (p, b)

/-- Gives back every segment, whatever is outstanding. -/
def releaseAll (b : Backing) (p : Pool) : Backing := p.segments.foldl (fun b s => s.release b) b

/-- The pool without its blocks and segments. -/
def emptied (p : Pool) : Pool := { p with free := [], segments := [] }

end Pool

end RegisteredHeap
