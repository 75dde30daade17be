import RegisteredHeap.Memory

/-! # Owners

An owner holds values in a block of its own. When it is dropped its values come to their end one
after the other, in the order of their places, and then the block is freed.
-/

namespace RegisteredHeap

structure Owner where
  element : Element
  block : Block
  /-- What the block holds, lowest address first. -/
  values : List Nat
  /-- The owner was made for a row of values, not for one. -/
  isRow : Bool
  deriving DecidableEq, Repr

/-- The values that an initializer yields from place `i` on, and whether it reached the last one: at
a place where it has no value it gives up. -/
def yields (init : Nat → Option Nat) (i : Nat) : Nat → List Nat × Bool
  | 0 => ([], true)
  | rest + 1 =>
    match init i with
    | none => ([], false)
    | some v =>
      let (vs, complete) := yields init (i + 1) rest
      (v :: vs, complete)

namespace Memory

/-- Ends values of a kind, the first one first. -/
def endValues (m : Memory) (element : Element) (values : List Nat) : Memory :=
  values.foldl (fun m v => m.log (.valueDropped element v)) m

def store (m : Memory) (a : Address) (element : Element) (values : List Nat) : Memory :=
  { m with backing := m.backing.write a (values.flatMap element.encode).toArray }

/-- Moves a value into a block of its own. If there is none, the value comes to its end. -/
def makeOwner (m : Memory) (heap : Nat) (element : Element) (node value : Nat) :
    Except HeapError Owner × Memory :=
  match m.allocateArray heap element.layout 1 node with
  | (.error e, m) => (.error e, m.endValues element [value])
  | (.ok block, m) =>
    (.ok { element, block, values := [value], isRow := false },
      m.store block.address element [value])

/-- Fills a block with values in a row. If the initializer gives up there is no owner: the values so
far come to their end and the block is freed. -/
def makeRow (m : Memory) (heap : Nat) (element : Element) (node len : Nat)
    (init : Nat → Option Nat) : Except HeapError (Option Owner) × Memory :=
  match m.allocateArray heap element.layout len node with
  | (.error e, m) => (.error e, m)
  | (.ok block, m) =>
    let (values, complete) := yields init 0 len
    let m := m.store block.address element values
    if complete then (.ok (some { element, block, values, isRow := true }), m)
    else (.ok none, (m.endValues element values).free block)

/-- Ends the values of an owner and frees its block. -/
def dropOwner (m : Memory) (o : Owner) : Memory := (m.endValues o.element o.values).free o.block

/-- Replaces the value at a place; the one before does not come to its end. -/
def assign (m : Memory) (o : Owner) (i value : Nat) : Owner × Memory :=
  if i < o.values.length then
    ({ o with values := o.values.set i value },
      m.store (o.block.address.advance (i * o.element.layout.size)) o.element [value])
  else (o, m)

/-- The owner with the values that its block holds now, after the memory was written to. -/
def reload (m : Memory) (o : Owner) : Owner :=
  let size := o.element.layout.size
  { o with
    values := (List.range o.values.length).map fun i =>
      o.element.decode (m.backing.read (o.block.address.advance (i * size)) size) }

end Memory

end RegisteredHeap
