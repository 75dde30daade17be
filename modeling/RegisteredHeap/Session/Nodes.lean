import RegisteredHeap.Numa
import RegisteredHeap.Session.Slots

/-! # Sessions with a provider of host memory -/

namespace RegisteredHeap

/-- Host memory with named extents. -/
structure Nodes where
  numa : Numa
  slots : Slots Extent := {}

namespace Nodes

inductive Step where
  | canAllocate (nodes : List Nat)
  | extent (size node : Nat) (name : String)
  | drop (name : String)

inductive Outcome where
  | can (answers : List Bool)
  | failed (cause : NumaError)
  | extent (extent : Extent)
  | dropped (answer : Bool)

/-- Gives back the extent of a name, if there is one. -/
def dropExtent (s : Nodes) (name : String) : Numa :=
  match s.slots.get? name with
  | some e => s.numa.free e.number
  | none => s.numa

/-- One step. An extent in the place of another is obtained before the other is given back. -/
def step (s : Nodes) : Step → Outcome × Nodes
  | .canAllocate nodes => (.can (nodes.map s.numa.canAllocateOn), s)
  | .extent size node name =>
    match s.numa.allocate size node with
    | (.error e, numa) => (.failed e, { s with numa })
    | (.ok e, numa) =>
      (.extent e, { numa := dropExtent { s with numa } name, slots := s.slots.put name e })
  | .drop name =>
    (.dropped (s.slots.get? name).isSome,
      { numa := s.dropExtent name, slots := s.slots.erase name })

/-- The answer to each step with the number of extents in use after it, and the last state. -/
def run (s : Nodes) : List Step → List (Outcome × Nat) × Nodes
  | [] => ([], s)
  | t :: steps =>
    let (outcome, s) := s.step t
    let (reports, last) := s.run steps
    ((outcome, s.numa.live.length) :: reports, last)

/-- The provider after every extent is given back. -/
def finish (s : Nodes) : Numa := s.slots.contents.foldl (fun n e => n.free e.number) s.numa

end Nodes

end RegisteredHeap
