import RegisteredHeap.Bisect
import RegisteredHeap.Contents
import RegisteredHeap.Error
import RegisteredHeap.Word

/-! # Host memory by node

A provider hands out extents of whole pages on the nodes that it may use. Where the pages come from
is its supply: a store of fixed capacity that can also be told to misbehave, or the memory of the
running system.
-/

namespace RegisteredHeap

/-- Host memory of one allocation. -/
structure Extent where
  number : Nat
  size : Nat
  /-- The node that the memory lies on. -/
  node : Nat
  deriving DecidableEq, Repr

/-- Where pages come from. -/
inductive Supply where
  /-- A store of so many bytes, which puts every extent on node `misplace` if given and makes it
  `shortPages` pages too short. -/
  | store (capacity : Nat) (misplace : Option Nat) (shortPages : Nat)
  /-- The memory of the running system, whose allocator has nothing for sizes from `limit` on. -/
  | system (limit : Nat)
  deriving DecidableEq, Repr

structure Numa where
  pageSize : Nat := 4096
  nodes : List Nat := [0]
  deviceNodes : List Nat := []
  /-- The nodes that memory may be taken from, in increasing order. -/
  allowed : List Nat := [0]
  /-- The node of the running thread. -/
  localNode : Nat := 0
  supply : Supply := .store 67108864 none 0
  /-- Extents handed out so far. -/
  issued : Nat := 0
  /-- The extents in use. -/
  live : List (Extent × Contents) := []

namespace Numa

/-- The nodes of host and devices in increasing order. -/
def allNodes (nodes deviceNodes : List Nat) : List Nat := (nodes ++ deviceNodes).mergeSort

def canAllocateOn (n : Numa) (node : Nat) : Bool := bisect n.allowed.toArray node

def liveBytes (n : Numa) : Nat := n.live.foldl (fun bytes (e, _) => bytes + e.size) 0

/-- The start of each page of a range, so that every page is touched once. -/
def pageStarts (pageSize size : Nat) : List Nat :=
  (List.range ((size + pageSize - 1) / pageSize)).map (· * pageSize)

/-- Memory of the system is made resident by a zero at the start of each page. -/
def prefault (pageSize size : Nat) : Contents :=
  (pageStarts pageSize size).foldl (fun c start => c.write start #[0]) {}

def issue (n : Numa) (size node : Nat) (contents : Contents) : Extent × Numa :=
  let e : Extent := ⟨n.issued, size, node⟩
  (e, { n with issued := n.issued + 1, live := (e, contents) :: n.live })

/-- Takes whole pages from a store: the node is checked first. -/
def fromStore (n : Numa) (capacity : Nat) (misplace : Option Nat) (shortPages pages node : Nat) :
    Except NumaError Extent × Numa :=
  let size := Word.saturate (pages * n.pageSize)
  if !n.canAllocateOn node then (.error (.nodeNotAvailable node), n)
  else if capacity - n.liveBytes < size then
    (.error (.allocationFailed size node .capacity), n)
  else
    let (e, n) := n.issue (max (pages - shortPages) 1 * n.pageSize) (misplace.getD node) {}
    (.ok e, n)

/-- Takes whole pages from the system, if its allocator grants a size: one beyond a word is refused
before the node is looked at, one beyond the largest layout after it. -/
def fromAllocator (n : Numa) (grants : Nat → Bool) (pages node : Nat) :
    Except NumaError Extent × Numa :=
  let size := pages * n.pageSize
  if size = 0 ∨ Word.limit ≤ size then (.error (.invalidSize pages), n)
  else if !n.canAllocateOn node then (.error (.nodeNotAvailable node), n)
  else if 1 <<< 63 - n.pageSize < size then (.error (.invalidSize size), n)
  else if !grants size then (.error (.allocationFailed size node .allocator), n)
  else
    let (e, n) := n.issue size node (prefault n.pageSize size)
    (.ok e, n)

def allocatePages (n : Numa) (pages node : Nat) : Except NumaError Extent × Numa :=
  match n.supply with
  | .store capacity misplace shortPages => n.fromStore capacity misplace shortPages pages node
  | .system limit => n.fromAllocator (· < limit) pages node

/-- At least `size` bytes on a node, in whole pages. -/
def allocate (n : Numa) (size node : Nat) : Except NumaError Extent × Numa :=
  if size = 0 then (.error (.invalidSize 0), n)
  else n.allocatePages ((size + n.pageSize - 1) / n.pageSize) node

def free (n : Numa) (number : Nat) : Numa :=
  { n with live := n.live.filter fun (e, _) => e.number != number }

/-- The contents of an extent in use. -/
def contents? (n : Numa) (number : Nat) : Option Contents :=
  (n.live.find? fun (e, _) => e.number == number).map (·.2)

def write (n : Numa) (number start : Nat) (bytes : Array UInt8) : Numa :=
  { n with
    live := n.live.map fun (e, c) =>
      if e.number == number then (e, c.write start bytes) else (e, c) }

end Numa

end RegisteredHeap
