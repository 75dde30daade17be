import RegisteredHeap.Address
import RegisteredHeap.Device
import RegisteredHeap.Session.Slots

/-! # Sessions with devices -/

namespace RegisteredHeap

/-- Device memory with named allocations. -/
structure Devices where
  device : Device
  /-- Numbers of the allocations. -/
  slots : Slots Nat := {}

namespace Devices

inductive Call where
  | select (device : Nat)
  | malloc (size : Nat) (name : String)
  | extent (size device : Nat) (name : String)
  | free (name : String)
  | write (name : String) (offset : Nat) (bytes : List UInt8)
  | read (name : String) (offset len : Nat)

/-- Calls, and steps that run on a thread of their own. -/
inductive Step where
  | call (call : Call)
  | thread (steps : List Step)

inductive Outcome where
  | done
  | failed (cause : DeviceError)
  /-- Whether the allocation starts at a multiple of the alignment. -/
  | allocated (aligned : Bool)
  | extent (extent : DeviceExtent)
  | freed (answer : Bool)
  | bytes (bytes : List UInt8)
  | skipped (name : String)

/-- The answer to a step, with the selected device and the bytes in use after it. -/
inductive Report where
  | call (outcome : Outcome) (selected liveBytes : Nat)
  | thread (reports : List Report) (selected liveBytes : Nat)

def dropSlot (s : Devices) (name : String) : Device :=
  match s.slots.get? name with
  | some number => s.device.free number
  | none => s.device

/-- Fills a slot; what was there is freed afterwards. -/
def keep (s : Devices) (d : Device) (name : String) (number : Nat) : Devices where
  device := dropSlot { s with device := d } name
  slots := s.slots.put name number

/-- One call. -/
def perform (s : Devices) : Call → Outcome × Devices
  | .select device =>
    match s.device.select device with
    | (.error e, d) => (.failed e, { s with device := d })
    | (.ok (), d) => (.done, { s with device := d })
  | .malloc size name =>
    match s.device.malloc size with
    | (.error e, d) => (.failed e, { s with device := d })
    | (.ok number, d) =>
      (.allocated ((Address.device number 0).aligned Device.alignment), s.keep d name number)
  | .extent size device name =>
    match s.device.allocate size device with
    | (.error e, d) => (.failed e, { s with device := d })
    | (.ok extent, d) => (.extent extent, s.keep d name extent.number)
  | .free name =>
    (.freed (s.slots.get? name).isSome,
      { s with device := s.dropSlot name, slots := s.slots.erase name })
  | .write name offset bytes =>
    match s.slots.get? name with
    | none => (.skipped name, s)
    | some number =>
      (.bytes bytes, { s with device := s.device.write number offset bytes.toArray })
  | .read name offset len =>
    match (s.slots.get? name).bind s.device.contents? with
    | none => (.skipped name, s)
    | some c => (.bytes (c.read offset len), s)

mutual

def run (s : Devices) : Step → Report × Devices
  | .call call =>
    let (outcome, s) := s.perform call
    (.call outcome s.device.selected s.device.liveBytes, s)
  | .thread steps =>
    let (reports, t) := runAll { s with device := s.device.enterThread } steps
    let d := t.device.leaveThread s.device
    (.thread reports d.selected d.liveBytes, { t with device := d })

def runAll (s : Devices) : List Step → List Report × Devices
  | [] => ([], s)
  | step :: steps =>
    let (report, s) := s.run step
    let (reports, s) := s.runAll steps
    (report :: reports, s)

end

/-- The devices after everything is freed. -/
def finish (s : Devices) : Device := s.slots.contents.foldl Device.free s.device

end Devices

end RegisteredHeap
