import RegisteredHeap.Device
import RegisteredHeap.Element
import RegisteredHeap.Numa
import RegisteredHeap.Registrar

/-! # Backing

The collaborators that heaps share: a registrar, a provider of host memory and possibly one of
device memory. A journal keeps the calls made on them, so that their order can be told.
-/

namespace RegisteredHeap

inductive Event where
  | extentObtained (extent : Extent)
  | extentReleased (number : Nat)
  | registered (region : Region)
  | deregistered (region : Region)
  | deviceObtained (extent : DeviceExtent)
  | deviceReleased (number : Nat)
  /-- A value that was moved into an owner, or made for one, came to its end. -/
  | valueDropped (element : Element) (value : Nat)
  /-- A block went back to where it came from. -/
  | blockFreed (address : Address)
  deriving DecidableEq, Repr

structure Backing where
  registrar : Registrar := {}
  numa : Numa := {}
  device : Option Device := none
  /-- What happened, the last event first. -/
  journal : List Event := []

namespace Backing

def log (b : Backing) (e : Event) : Backing := { b with journal := e :: b.journal }

/-- At least `size` bytes of host memory on a node. -/
def obtain (b : Backing) (size node : Nat) : Except HeapError Extent × Backing :=
  match b.numa.allocate size node with
  | (.error e, numa) => (.error (.numa e), { b with numa })
  | (.ok extent, numa) => (.ok extent, { b with numa }.log (.extentObtained extent))

def release (b : Backing) (extent : Extent) : Backing :=
  { b with numa := b.numa.free extent.number }.log (.extentReleased extent.number)

def register (b : Backing) (base : Address) (len : Nat) (flags : Flags) (device : Option Nat) :
    Except HeapError Region × Backing :=
  match b.registrar.register base len flags device with
  | (.error e, registrar) => (.error (.registration e), { b with registrar })
  | (.ok region, registrar) => (.ok region, { b with registrar }.log (.registered region))

def deregister (b : Backing) (region : Region) : Backing :=
  { b with registrar := b.registrar.deregister }.log (.deregistered region)

/-- Device memory on a device. -/
def obtainDevice (b : Backing) (size device : Nat) : Except HeapError DeviceExtent × Backing :=
  match b.device with
  | none => (.error .deviceSupportDisabled, b)
  | some d =>
    match d.allocate size device with
    | (.error e, d) => (.error (.device e), { b with device := some d })
    | (.ok extent, d) => (.ok extent, { b with device := some d }.log (.deviceObtained extent))

def releaseDevice (b : Backing) (extent : DeviceExtent) : Backing :=
  { b with device := b.device.map (Device.free · extent.number) }.log
    (.deviceReleased extent.number)

/-- What the extent of an address holds, if it is in use. -/
def contents? (b : Backing) : Address → Option Contents
  | .host e _ => b.numa.contents? e
  | .device e _ => b.device.bind (Device.contents? · e)
  | .user _ => none

/-- Bytes at an address, none if its extent is not in use. -/
def read (b : Backing) (a : Address) (len : Nat) : List UInt8 :=
  match b.contents? a with
  | some c => c.read a.offset len
  | none => []

def write (b : Backing) (a : Address) (bytes : Array UInt8) : Backing :=
  match a with
  | .host e o => { b with numa := b.numa.write e o bytes }
  | .device e o => { b with device := b.device.map fun d => d.write e o bytes }
  | .user _ => b

/-- The backing in a new thread. -/
def enterThread (b : Backing) : Backing := { b with device := b.device.map Device.enterThread }

/-- The backing `b` after a thread, in the thread that started it at `outer`. -/
def leaveThread (b outer : Backing) : Backing :=
  match b.device, outer.device with
  | some d, some o => { b with device := some (d.leaveThread o) }
  | _, _ => b

end Backing

end RegisteredHeap
