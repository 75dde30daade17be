import RegisteredHeap.Owner
import RegisteredHeap.Text.Quoted
import RegisteredHeap.Text.Record

/-! # Descriptions

Texts that show the state of a value to a reader.
-/

namespace RegisteredHeap

open Text

def Handle.description (h : Handle) : String :=
  record "LoopbackHandle" [("local_key", toString h.localKey), ("remote_key", h.remoteKey.asNumber),
    ("address", h.address.asNumber), ("len", toString h.len),
    ("message_length", toString h.messageLength)]

def Block.description (b : Block) : String :=
  record "Block" [("ptr", b.address.asPointer), ("size", toString b.size), ("user", truth b.isUser),
    ("handle", b.handle.description),
    ("device_ptr", optional (b.copy.map fun c => c.address.asPointer))]

def Extent.description (e : Extent) : String :=
  openRecord "NumaExtent" [("allocation",
    record "Allocation" [("ptr", Address.text (.host e.number 0)), ("size", toString e.size),
      ("node", toString e.node), ("uses_numa_free", truth false)])]

def DeviceExtent.description (e : DeviceExtent) : String :=
  openRecord "DeviceExtent" [("ptr", Address.text (.device e.number 0)), ("size", toString e.size),
    ("device", toString e.device)]

def Device.description (d : Device) : String :=
  record "EmulatedDevice" [("num_devices", toString d.count), ("live_bytes", toString d.liveBytes)]

def Supply.description : Supply → String
  | .store .. => "SimNuma"
  | .system _ => "SystemNuma"

def Config.description (c : Config) : String :=
  let number (k : Setting) := (k.name, toString (c.settings.get k))
  record "HeapConfig" ((Settings.switchName, truth c.neverFree) :: Setting.all.map number ++ [
    ("bucket_shift", toString c.bucketShift), ("tiny_increment", toString c.tinyIncrement),
    ("num_tiny_heaps", toString c.numTiny), ("num_small_heaps", toString c.numSmall),
    ("num_large_heaps", toString c.numLarge)])

/-- What a heap shares with the others, and what it does with empty segments. -/
def Backing.description (b : Backing) (c : Config) : String :=
  record "HeapContext" [("transport", quoted Registrar.transport),
    ("numa", b.numa.supply.description), ("device", optional (b.device.map Device.description)),
    (Settings.switchName, truth c.neverFree),
    (Setting.reserveSegments.name, toString c.reserveSegments)]

def Heap.description (h : Heap) (b : Backing) : String :=
  record "Heap" [("config", h.config.description), ("context", b.description h.config),
    ("tiny_heaps", toString h.tiny.length), ("heaps", toString h.exponential.length),
    ("huge_heaps", toString h.numHuge)]

/-- An allocator of 64-bit words; the address of its heap is left out. -/
def allocatorDescription (node : Nat) : String :=
  record "HeapAllocator" [("heap", "0x?"), ("node", toString node), ("type", quoted "u64")]

def Element.describe : Element → Nat → String
  | .tracked, v => record "Tracked" [("value", toString v), ("log", "L")]
  | .word, v | .wide, v => toString v

def Owner.description (o : Owner) : String :=
  let values := listed (o.values.map o.element.describe)
  if o.isRow then "[" ++ values ++ "]" else wrapped "UniquePtr" values

end RegisteredHeap
