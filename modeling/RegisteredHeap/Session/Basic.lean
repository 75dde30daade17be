import RegisteredHeap.Description
import RegisteredHeap.Session.Slots

/-! # Sessions

A session is one user of a memory, who keeps what the heaps gave in named slots. What can be asked
of a session is a `Call`; every step is answered by a report with the counters after it.
-/

namespace RegisteredHeap

/-- What a slot holds. -/
inductive Held where
  | pointer (block : Block)
  | erased (block : ErasedBlock)
  | owner (owner : Owner)
  /-- Blocks in the order of their addresses. -/
  | group (blocks : List Block)
  deriving DecidableEq, Repr

namespace Held

/-- The block behind a pointer or an owner. -/
def block? : Held → Option Block
  | pointer b => some b
  | owner o => some o.block
  | erased _ | group _ => none

/-- Where the memory starts, on the device if asked for. -/
def place? (onDevice : Bool) : Held → Option Address
  | pointer b | owner { block := b, .. } =>
    if onDevice then b.copy.map (·.address) else some b.address
  | erased e => if onDevice then none else some e.address
  | group _ => none

end Held

/-- The values that owners are made for in a session. -/
inductive Sample where
  | tracked
  | word
  /-- A byte, repeated over an aligned run of 64. -/
  | wide

def Sample.element : Sample → Element
  | tracked => .tracked
  | word => .word
  | wide => @Element.wide 1 6

/-- What may be asked of a session. -/
inductive Call where
  | allocate (size node : Nat) (device : Option Nat) (name : String)
  | allocateMany (count size node : Nat) (device : Option Nat) (name : String)
  | allocateArray (layout : Layout) (count node : Nat) (name : String)
  | allocateErased (size node : Nat) (name : String)
  | registerUser (address size : Nat) (device : Option Nat) (name : String)
  | makeOwner (sample : Sample) (node value : Nat) (name : String)
  | makeRow (sample : Sample) (node len : Nat) (init : Nat → Option Nat) (name : String)
  /-- Of a group so many blocks, all if no number is given, from the top if asked for. -/
  | free (name : String) (count : Option Nat) (fromTop : Bool)
  /-- Frees a pointer, and nothing else. -/
  | freePointer (name : String)
  /-- Frees a pointer and keeps it. -/
  | freeKept (name : String)
  | forget (name : String)
  | clone (name target : String)
  | compare (a b : String)
  | setMessageLength (name : String) (len : Nat)
  | view (name : String)
  | write (name : String) (offset : Nat) (bytes : List UInt8) (onDevice : Bool)
  | read (name : String) (offset len : Nat) (onDevice : Bool)
  | assign (name : String) (place value : Nat)
  | compareAllocators (heapA nodeA heapB nodeB : Nat)
  | stats
  | sizeClass (size : Nat)
  | info
  | describeHeap
  | describeAllocator (node : Nat)
  | describe (name : String)

/-- Calls on heaps, and steps that run on a thread of their own. -/
inductive Step where
  | call (heap : Nat) (call : Call)
  | thread (heap : Nat) (steps : List Step)

/-- How two blocks compare. Pointers are equal when their addresses are. -/
structure Comparison where
  address : Bool
  device : Bool
  handle : Bool
  deriving DecidableEq, Repr

def Block.compare (a b : Block) : Comparison where
  address := a.address = b.address
  device := a.copy.map (·.address) = b.copy.map (·.address)
  handle := a.handle = b.handle

structure HeapInfo where
  config : Config
  nodes : List Nat
  localNode : Nat
  /-- The selected device and the bytes in use on all devices. -/
  device : Option (Nat × Nat)
  deriving DecidableEq, Repr

inductive Outcome where
  | done
  /-- There is nothing in the slot that the call could work on. -/
  | skipped (name : String)
  | failed (cause : HeapError)
  | held (held : Held)
  /-- The group so far, and why it ended before its count. -/
  | many (blocks : List Block) (failure : Option HeapError)
  /-- Storage for a layout, and whether it starts at a multiple of the alignment. -/
  | array (block : Except HeapError (Block × Bool))
  /-- The initializer of a row gave up. -/
  | abandoned
  | compared (c : Comparison)
  | bytes (bytes : List UInt8)
  | noCopy
  | allocators (equal : Bool) (node : Nat) (sameHeap : Bool)
  | stats (stats : Stats)
  | sizeClass (size : Nat)
  | info (info : HeapInfo)
  | text (text : String)

/-- Counters after a step: of one heap, and of the backing. -/
structure Counters where
  stats : Stats
  registrar : Registrar
  liveExtents : Nat
  liveBuffers : Nat
  numHuge : Nat

/-- The answer to a step, with the values that came to their end since the report before. -/
inductive Report where
  | call (outcome : Outcome) (counters : Counters) (dropped : List Nat)
  | thread (reports : List Report) (counters : Counters) (dropped : List Nat)

structure Session where
  memory : Memory
  slots : Slots Held := {}
  /-- How many events of the journal have been reported. -/
  reported : Nat := 0

end RegisteredHeap
