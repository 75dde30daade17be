import RegisteredHeap.Registrar

/-! # Blocks

The unit handed to callers: a slice of a segment, or memory of the caller that was registered. A
block carries its handle, so that keys are read without its segment.
-/

namespace RegisteredHeap

/-- A pool of a heap: the blocks of one size on one node, and on one device if there is one. -/
structure PoolKey where
  heap : Nat
  blockSize : Nat
  node : Nat
  device : Option Nat := none
  deriving DecidableEq, Repr

/-- Where a block goes back to. -/
inductive Origin where
  /-- The segment on a host extent, in its pool. -/
  | segment (pool : PoolKey) (extent : Nat)
  /-- Its own registration. -/
  | user (region : Region)
  deriving DecidableEq, Repr

/-- The copy of a block on a device. -/
structure DeviceCopy where
  address : Address
  handle : Handle
  deriving DecidableEq, Repr

structure Block where
  origin : Origin
  address : Address
  size : Nat
  handle : Handle
  copy : Option DeviceCopy := none
  deriving DecidableEq, Repr

/-- A block without its registration types: the copy on a device is left out. -/
structure ErasedBlock where
  origin : Origin
  address : Address
  size : Nat
  handle : Handle
  deriving DecidableEq, Repr

namespace Block

/-- A range of the caller as a block of its region. Memory on a device is its own copy there. -/
def inRegion (region : Region) (address : Address) (size : Nat) : Block :=
  let handle := region.handle 0 size
  { origin := .user region
    address
    size
    handle
    copy := if region.device.isSome then some ⟨address, handle⟩ else none }

/-- A registered range of the caller as a block. -/
def ofUser (region : Region) : Block := inRegion region region.base region.len

def isUser (b : Block) : Bool :=
  match b.origin with
  | .user _ => true
  | .segment .. => false

def setMessageLength (b : Block) (n : Nat) : Block :=
  { b with handle := { b.handle with messageLength := n } }

def erase (b : Block) : ErasedBlock := ⟨b.origin, b.address, b.size, b.handle⟩

end Block

namespace ErasedBlock

def isUser (b : ErasedBlock) : Bool :=
  match b.origin with
  | .user _ => true
  | .segment .. => false

def setMessageLength (b : ErasedBlock) (n : Nat) : ErasedBlock :=
  { b with handle := { b.handle with messageLength := n } }

end ErasedBlock

end RegisteredHeap
