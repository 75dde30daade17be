import RegisteredHeap.Contents
import RegisteredHeap.Error
import RegisteredHeap.Word

/-! # Device memory

An emulation of devices in host memory. Each thread selects a device for itself; an allocation is
made on the selected one and counts at least one byte.
-/

namespace RegisteredHeap

/-- Device memory of one allocation. -/
structure DeviceExtent where
  number : Nat
  size : Nat
  device : Nat
  deriving DecidableEq, Repr

/-- An allocation in use. -/
structure Buffer where
  number : Nat
  size : Nat
  contents : Contents := {}

/-- Bytes that the buffer is counted with. -/
def Buffer.bytes (b : Buffer) : Nat := max b.size 1

structure Device where
  count : Nat
  /-- The bytes that are granted in all, as they are asked for. A request for none can always be
  granted by this. -/
  capacity : Nat := 67108864
  /-- The most bytes that the host gives for one allocation. It is asked for one byte at least. -/
  hostLimit : Nat := Word.maxLayout - 4096
  /-- The device that the running thread has selected. -/
  selected : Nat := 0
  liveBytes : Nat := 0
  /-- Allocations made so far. -/
  issued : Nat := 0
  buffers : List Buffer := []

namespace Device

/-- Allocations start at a multiple of this. -/
def alignment : Nat := 256

def select (d : Device) (device : Nat) : Except DeviceError Unit × Device :=
  if device < d.count then (.ok (), { d with selected := device })
  else (.error (.invalidDevice device), d)

/-- The number of a new buffer. A size whose layout is impossible is reported for device 0, any
other that does not fit for the selected device. -/
def malloc (d : Device) (size : Nat) : Except DeviceError Nat × Device :=
  if Word.maxLayout < Word.multipleAbove (max size 1) alignment then
    (.error (.allocationFailed size 0), d)
  else if d.hostLimit < max size 1 ∨ d.capacity - d.liveBytes < size then
    (.error (.allocationFailed size d.selected), d)
  else
    let b : Buffer := { number := d.issued, size }
    (.ok b.number,
      { d with
        issued := d.issued + 1
        liveBytes := d.liveBytes + b.bytes
        buffers := b :: d.buffers })

def free (d : Device) (number : Nat) : Device :=
  match d.buffers.find? (·.number == number) with
  | some b =>
    { d with
      liveBytes := d.liveBytes - b.bytes
      buffers := d.buffers.filter (·.number != number) }
  | none => d

/-- Selects the device, which stays selected even if there is no memory for the extent. -/
def allocate (d : Device) (size device : Nat) : Except DeviceError DeviceExtent × Device :=
  match d.select device with
  | (.error e, d) => (.error e, d)
  | (.ok (), d) =>
    match d.malloc size with
    | (.error e, d) => (.error e, d)
    | (.ok number, d) => (.ok ⟨number, size, device⟩, d)

def contents? (d : Device) (number : Nat) : Option Contents :=
  (d.buffers.find? (·.number == number)).map (·.contents)

def write (d : Device) (number start : Nat) (bytes : Array UInt8) : Device :=
  { d with
    buffers := d.buffers.map fun b =>
      if b.number == number then { b with contents := b.contents.write start bytes } else b }

/-- The state in a new thread, where nothing is selected yet. -/
def enterThread (d : Device) : Device := { d with selected := 0 }

/-- The state `d` after a thread, in the thread that had made the selection of `outer`. -/
def leaveThread (d outer : Device) : Device := { d with selected := outer.selected }

end Device

end RegisteredHeap
