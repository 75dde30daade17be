import RegisteredHeap.Session.Basic
import RegisteredHeap.Session.Group

/-! # Running a session -/

namespace RegisteredHeap

namespace Session

/-- A session over a heap for each of some settings, or the fault of the first bad ones. There is
none if the tables of a heap cannot be made, in a build that checks its sums. -/
def start (b : Backing) (settings : List Settings) : Except ConfigError (Option Session) := do
  let configs ← settings.mapM Config.ofSettings
  if !configs.isEmpty && Heap.unbuildable b.numa.nodes then return none
  return some { memory := .ofConfigs b configs }

/-- Lets go of something. Only an owner gives back what it has. -/
def discard (m : Memory) : Held → Memory
  | .owner o => m.dropOwner o
  | .pointer _ | .erased _ | .group _ => m

/-- Fills a slot; what was there is let go of afterwards. -/
def fill (s : Session) (name : String) (h : Held) : Session :=
  { s with
    memory := ((s.slots.get? name).map (discard s.memory)).getD s.memory
    slots := s.slots.put name h }

/-- The session after memory was written to: owners see what their blocks hold now. -/
def settle (s : Session) : Session :=
  { s with
    slots := s.slots.map fun
      | .owner o => .owner (s.memory.reload o)
      | h => h }

def withMemory (s : Session) (m : Memory) : Session := { s with memory := m }

/-- Fills a slot with what a call gave. -/
def keep (s : Session) (name : String) : Except HeapError Held × Memory → Outcome × Session
  | (.error e, m) => (.failed e, s.withMemory m)
  | (.ok h, m) => (.held h, ((s.withMemory m).fill name h).settle)

/-- Works on what a slot holds, if `f` can. -/
def withSlot (s : Session) (name : String) (f : Held → Option (Outcome × Session)) :
    Outcome × Session :=
  ((s.slots.get? name).bind f).getD (.skipped name, s)

/-- Empties a slot. -/
def drop (s : Session) (name : String) (m : Memory) : Session :=
  { s with memory := m, slots := s.slots.erase name }

/-- Frees a number of blocks of a group from one of its ends, all if no number is given. -/
def freeGroup (s : Session) (name : String) (blocks : List Block) (count : Option Nat)
    (fromTop : Bool) : Session :=
  let (freed, rest) := Group.split blocks (count.getD blocks.length) fromTop
  let m := freed.foldl Memory.free s.memory
  if rest.isEmpty then s.drop name m
  else { s with memory := m, slots := s.slots.put name (.group rest) }

/-- Frees what a slot holds. -/
def free (s : Session) (name : String) (count : Option Nat) (fromTop : Bool) :
    Held → Session
  | .pointer b => s.drop name (s.memory.free b)
  | .erased e => s.drop name (s.memory.freeErased e)
  | .owner o => s.drop name (s.memory.dropOwner o)
  | .group blocks => s.freeGroup name blocks count fromTop

def describe : Held → Option String
  | .pointer b =>
    some (Text.wrapped "HwVoidPtr" b.description ++ " " ++ Text.wrapped "HwPtr" b.description)
  | .erased e => some e.handle.description
  | .owner o => some o.description
  | .group _ => none

def setMessageLength (n : Nat) : Held → Option Held
  | .pointer b => some (.pointer (b.setMessageLength n))
  | .erased e => some (.erased (e.setMessageLength n))
  | .owner _ | .group _ => none

def info (m : Memory) (h : Heap) : HeapInfo where
  config := h.config
  nodes := m.backing.numa.nodes
  localNode := m.backing.numa.localNode
  device := m.backing.device.map fun d => (d.selected, d.liveBytes)

/-- A question to a heap, none if it is not there. -/
def ask (s : Session) (heap : Nat) (f : Heap → Outcome) : Outcome × Session :=
  (((s.memory.heaps[heap]?).map f).getD .done, s)

/-- One call on a heap. -/
def perform (s : Session) (heap : Nat) : Call → Outcome × Session
  | .allocate size node device name =>
    let (r, m) := s.memory.allocate heap size node device
    s.keep name (r.map .pointer, m)
  | .allocateMany count size node device name =>
    let (blocks, failure, m) := s.memory.allocateMany heap size node device count
    let blocks := Group.inOrder blocks
    (.many blocks failure, (s.withMemory m).fill name (.group blocks))
  | .allocateArray layout count node name =>
    match s.memory.allocateArray heap layout count node with
    | (.error e, m) => (.array (.error e), s.withMemory m)
    | (.ok b, m) =>
      (.array (.ok (b, b.address.aligned layout.align)), (s.withMemory m).fill name (.pointer b))
  | .allocateErased size node name =>
    let (r, m) := s.memory.allocate heap size node none
    s.keep name (r.map fun b => .erased b.erase, m)
  | .registerUser address size device name =>
    let (r, m) := s.memory.registerUser heap address size device
    s.keep name (r.map .pointer, m)
  | .makeOwner sample node value name =>
    let (r, m) := s.memory.makeOwner heap sample.element node value
    s.keep name (r.map .owner, m)
  | .makeRow sample node len init name =>
    match s.memory.makeRow heap sample.element node len init with
    | (.error e, m) => (.failed e, s.withMemory m)
    | (.ok none, m) => (.abandoned, (s.withMemory m).settle)
    | (.ok (some o), m) => s.keep name (.ok (.owner o), m)
  | .free name count fromTop => s.withSlot name fun h => some (.done, s.free name count fromTop h)
  | .freePointer name => s.withSlot name fun
    | .pointer b => some (.done, s.drop name (s.memory.free b))
    | _ => none
  | .freeKept name => s.withSlot name fun
    | .pointer b => some (.done, s.withMemory (s.memory.free b))
    | _ => none
  | .forget name => s.withSlot name fun h => some (.done, s.drop name (discard s.memory h))
  | .clone name target => s.withSlot name fun h =>
    h.block?.map fun b => (.held (.pointer b), s.fill target (.pointer b))
  | .compare a b => s.withSlot a fun x => x.block?.map fun x =>
    s.withSlot b fun y => y.block?.map fun y => (.compared (x.compare y), s)
  | .setMessageLength name n => s.withSlot name fun h =>
    (setMessageLength n h).map fun h => (.held h, { s with slots := s.slots.put name h })
  | .view name => s.withSlot name fun h => some (.held h, s)
  | .write name offset bytes onDevice => s.withSlot name fun h =>
    match h.place? onDevice with
    | none => some (.noCopy, s)
    | some a =>
      let m := { s.memory with backing := s.memory.backing.write (a.advance offset) bytes.toArray }
      some (.bytes bytes, (s.withMemory m).settle)
  | .read name offset len onDevice => s.withSlot name fun h =>
    match h.place? onDevice with
    | none => some (.noCopy, s)
    | some a => some (.bytes (s.memory.backing.read (a.advance offset) len), s)
  | .assign name place value => s.withSlot name fun
    | .owner o =>
      let (o, m) := s.memory.assign o place value
      let s := { s with memory := m, slots := s.slots.put name (.owner o) }
      some (.held (.owner o), s.settle)
    | _ => none
  | .compareAllocators heapA nodeA heapB nodeB =>
    (.allocators (heapA == heapB && nodeA == nodeB) nodeA (heapA == heapB), s)
  | .stats => s.ask heap fun h => .stats h.stats
  | .sizeClass size => s.ask heap fun h =>
    match h.config.sizeClass size with
    | .ok n => .sizeClass n
    | .error e => .failed e
  | .info => s.ask heap fun h => .info (info s.memory h)
  | .describeHeap => s.ask heap fun h => .text (h.description s.memory.backing)
  | .describeAllocator node => (.text (allocatorDescription node), s)
  | .describe name => s.withSlot name fun h => (describe h).map fun text => (.text text, s)

/-- Counters of a heap and of the backing. -/
def counters (m : Memory) (heap : Nat) : Counters where
  stats := ((m.heaps[heap]?).map Heap.stats).getD {}
  registrar := m.backing.registrar
  liveExtents := m.backing.numa.live.length
  liveBuffers := (m.backing.device.map fun d => d.buffers.length).getD 0
  numHuge := ((m.heaps[heap]?).map Heap.numHuge).getD 0

/-- The values that came to their end since the last report, which they are now part of. -/
def takeDropped (s : Session) : List Nat × Session :=
  let total := s.memory.backing.journal.length
  let recent := (s.memory.backing.journal.take (total - s.reported)).reverse
  (recent.filterMap fun
    | .valueDropped .tracked v => some v
    | _ => none, { s with reported := total })

mutual

/-- Runs a step. A thread of its own starts with no device selected, and what it selects is gone
when it ends. -/
def run (s : Session) : Step → Report × Session
  | .call heap call =>
    let (outcome, s) := s.perform heap call
    let (dropped, s) := s.takeDropped
    (.call outcome (counters s.memory heap) dropped, s)
  | .thread heap steps =>
    let (reports, t) :=
      runAll { s with memory.backing := s.memory.backing.enterThread } steps
    let t := { t with memory.backing := t.memory.backing.leaveThread s.memory.backing }
    let (dropped, t) := t.takeDropped
    (.thread reports (counters t.memory heap) dropped, t)

def runAll (s : Session) : List Step → List Report × Session
  | [] => ([], s)
  | step :: steps =>
    let (report, s) := s.run step
    let (reports, s) := s.runAll steps
    (report :: reports, s)

end

/-- What is left when a session is over. -/
structure Remains where
  registrar : Registrar
  liveExtents : Nat
  liveBuffers : Nat
  deviceBytes : Option Nat
  dropped : List Nat

/-- Lets go of the slots in the order of their names, and then closes the heaps. -/
def finish (s : Session) : Remains :=
  let m := (s.slots.contents.foldl discard s.memory).close
  let (dropped, _) := { s with memory := m }.takeDropped
  { registrar := m.backing.registrar
    liveExtents := m.backing.numa.live.length
    liveBuffers := (m.backing.device.map fun d => d.buffers.length).getD 0
    deviceBytes := m.backing.device.map Device.liveBytes
    dropped }

end Session

end RegisteredHeap
