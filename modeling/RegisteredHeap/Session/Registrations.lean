import RegisteredHeap.Registrar
import RegisteredHeap.Session.Slots

/-! # Sessions with a registrar -/

namespace RegisteredHeap

/-- A registrar with named regions and named handles. -/
structure Registrations where
  registrar : Registrar
  regions : Slots Region := {}
  handles : Slots Handle := {}

namespace Registrations

inductive Step where
  | register (address len : Nat) (flags : Flags) (device : Option Nat) (name : String)
  | handle (region : String) (offset len : Nat) (name : String)
  | emptyHandle (name : String)
  | setMessageLength (handle : String) (len : Nat)
  | compare (a b : String)
  | drop (region : String)

inductive Outcome where
  | registered (region : Region)
  | refused (cause : RegistrationError)
  | handle (handle : Handle)
  | equal (answer : Bool)
  | dropped (answer : Bool)
  | skipped (name : String)

/-- Drops the region of a name, if there is one. -/
def dropRegion (s : Registrations) (name : String) : Registrar :=
  match s.regions.get? name with
  | some _ => s.registrar.deregister
  | none => s.registrar

def keep (s : Registrations) (name : String) (h : Handle) : Outcome × Registrations :=
  (.handle h, { s with handles := s.handles.put name h })

/-- One step. A region in the place of another is registered before the other is dropped. -/
def step (s : Registrations) : Step → Outcome × Registrations
  | .register address len flags device name =>
    match s.registrar.register (.user address) len flags device with
    | (.error e, registrar) => (.refused e, { s with registrar })
    | (.ok region, registrar) =>
      let registrar := dropRegion { s with registrar } name
      (.registered region, { s with registrar, regions := s.regions.put name region })
  | .handle region offset len name =>
    match s.regions.get? region with
    | some r => s.keep name (r.handle offset len)
    | none => (.skipped region, s)
  | .emptyHandle name => s.keep name .empty
  | .setMessageLength name len =>
    match s.handles.get? name with
    | some h => s.keep name { h with messageLength := len }
    | none => (.skipped name, s)
  | .compare a b => (.equal (s.handles.get? a == s.handles.get? b), s)
  | .drop name =>
    (.dropped (s.regions.get? name).isSome,
      { s with registrar := s.dropRegion name, regions := s.regions.erase name })

/-- The answer to each step with the counters after it, and the last state. -/
def run (s : Registrations) : List Step → List (Outcome × Registrar) × Registrations
  | [] => ([], s)
  | t :: steps =>
    let (outcome, s) := s.step t
    let (reports, last) := s.run steps
    ((outcome, s.registrar) :: reports, last)

/-- The registrar after every region is dropped. -/
def finish (s : Registrations) : Registrar :=
  s.regions.contents.foldl (fun r _ => r.deregister) s.registrar

end Registrations

end RegisteredHeap
