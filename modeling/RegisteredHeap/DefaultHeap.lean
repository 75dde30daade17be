import RegisteredHeap.Memory
import RegisteredHeap.Override

/-! # The default heap

One heap of a process, on a backing of its own. It is made by the first call whose environment
describes a configuration and stays the same from then on.
-/

namespace RegisteredHeap

/-- The heap once it is made, alone in its memory. -/
structure DefaultHeap where
  made : Option (Config × Memory) := none

namespace DefaultHeap

/-- The heap that is there, or a new one with the configuration of the environment. -/
def get (d : DefaultHeap) (b : Backing) (env : Environment) :
    Except ConfigError (Config × Memory) × DefaultHeap :=
  match d.made with
  | some there => (.ok there, d)
  | none =>
    match Config.ofSettings (Settings.override {} env) with
    | .error e => (.error e, d)
    | .ok c =>
      let there := (c, Memory.ofConfigs b [c])
      (.ok there, ⟨some there⟩)

/-- Allocates on the local node and frees at once. -/
def touch (m : Memory) (size : Nat) : Except HeapError Block × Memory :=
  match m.allocate 0 size m.backing.numa.localNode none with
  | (.error e, m) => (.error e, m)
  | (.ok block, m) => (.ok block, m.free block)

/-- What one use of the heap showed. -/
structure Visit where
  config : Config
  /-- The heap was there before. -/
  again : Bool
  blocks : List (Except HeapError Block)
  stats : Stats

def touchAll (m : Memory) : List Nat → List (Except HeapError Block) × Memory
  | [] => ([], m)
  | size :: sizes =>
    let (r, m) := touch m size
    let (rs, m) := touchAll m sizes
    (r :: rs, m)

/-- Gets the heap and touches blocks of some sizes. -/
def visit (d : DefaultHeap) (b : Backing) (env : Environment) (sizes : List Nat) :
    Except ConfigError Visit × DefaultHeap :=
  match d.get b env with
  | (.error e, d) => (.error e, d)
  | (.ok (config, m), _) =>
    let (blocks, m) := touchAll m sizes
    (.ok { config, again := d.made.isSome, blocks, stats := .total (m.heaps.map Heap.stats) },
      ⟨some (config, m)⟩)

end DefaultHeap

end RegisteredHeap
